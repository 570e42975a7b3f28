/-
  Picking a node among weighted nodes (g3-types `collection/selective_vec.rs`):
  `SelectiveVecBuilder::build`, the ketama ring, and the rendezvous and
  ketama picks, for one key.

  A finite `f64` weight is a rational, so weights are `ℚ` (NaN and the
  infinities, which the config parser also lets through, are left out);
  `weight_u32` is its ceiling cast to `u32`, which saturates.  What the
  hashes compute is not modelled: the ring point after `prev` of a node
  (`crc32` of its `selective_hash` and `prev`) is `pointHash`, and a
  node's rendezvous score for the key is a value of a linear order
  (`rendezvous_hash` is a `u64`, `rendezvous_weighted_hash` an `f64`).
  Rust's `sort_unstable_by` may order equal keys either way; the model
  sorts them stably (`List.mergeSort`), one of the orders it may give.

  * `pickRendezvous_unweighted_max`: without weights the pick has a
    maximum score; `pickRendezvous_weighted_first`: with weights, whose
    scores are never positive, the loop seeded with `0f64` never moves off
    `inner[0]`.
  * `ketamaRingCreate_sorted` and `ringPoints_count`: the ring is sorted by
    hash without repeats, from `weight_u32 * 160` points per node;
    `pickKetama_build`: when some node has a point the ring is not empty,
    and the pick is the node of the first point at or after the key's hash,
    or of the first point.  When every weight is at most zero the ring is
    empty and the pick panics (`pickKetama_zero_weights`).
-/
import Mathlib.Data.List.Sort
import Mathlib.Data.List.Destutter
import Mathlib.Data.Rat.Floor
import G3Proxy.Core.Lists
import G3Proxy.Io.DatagramLimit

namespace G3Proxy

/-- `SelectiveVec`: the nodes, heaviest first, whether their weights
    differ, and the ketama ring of `(node index, point hash)`. -/
structure SelectiveVec (T : Type) where
  weighted : Bool
  inner : List T
  ketamaRing : List (Nat × Nat)
  deriving Repr, DecidableEq

namespace SelectiveVec

variable {T S : Type}

/-! ## Building -/

/-- `weight_u32`: `self.weight().ceil() as u32`, which saturates at both
    ends. -/
def weightU32 (w : ℚ) : Nat :=
  min ⌈w⌉.toNat (2 ^ 32 - 1)

/-- `POINT_MULTIPLE` of `ketama_ring_create`. -/
def pointMultiple : Nat := 160

/-- The inner loop of `ketama_ring_create`: `count` points of one node,
    each hashed from the one before, the first from `0`. -/
def nodePoints (pointHash : T → Nat → Nat) (node : T) : Nat → Nat → List Nat
  | 0, _ => []
  | count + 1, prev => pointHash node prev :: nodePoints pointHash node count (pointHash node prev)

/-- The outer loop of `ketama_ring_create`: the points of each node, tagged
    with its index. -/
def ringPoints (weight : T → ℚ) (pointHash : T → Nat → Nat) : Nat → List T → List (Nat × Nat)
  | _, [] => []
  | i, node :: nodes =>
    (nodePoints pointHash node (weightU32 (weight node) * pointMultiple) 0).map (i, ·) ++
      ringPoints weight pointHash (i + 1) nodes

/-- `ketama_ring_create`: the points sorted by hash, keeping the first of
    each run of equal hashes (`dedup_by`). -/
def ketamaRingCreate (weight : T → ℚ) (pointHash : T → Nat → Nat) (nodes : List T) : List (Nat × Nat) :=
  ((ringPoints weight pointHash 0 nodes).mergeSort fun a b => a.2 ≤ b.2).destutter fun a b => a.2 ≠ b.2

/-- `SelectiveVecBuilder::build`: `None` for no nodes; the nodes sorted
    heaviest first, equal weights in their order. -/
def build (weight : T → ℚ) (pointHash : T → Nat → Nat) (inner : List T) : Option (SelectiveVec T) :=
  match inner with
  | [] => none
  | first :: _ =>
    let nodes := inner.mergeSort fun a b => weight b ≤ weight a
    some ⟨inner.any (fun item => weight item ≠ weight first), nodes, ketamaRingCreate weight pointHash nodes⟩

/-! ## Rendezvous -/

section Rendezvous

variable [LinearOrder S]

/-- The loop of `pick_rendezvous`: keep the node of the highest score seen,
    replacing it only on a strictly higher one. -/
def rendezvousLoop (score : T → S) (acc : S × T) (items : List T) : S × T :=
  items.foldl (fun acc item => if acc.1 < score item then (score item, item) else acc) acc

/-- `pick_rendezvous`; `hashU` is `rendezvous_hash` and `hashW` is
    `rendezvous_weighted_hash` for the key, both seeded with zero. -/
def pickRendezvous [Zero S] (hashU : T → Nat) (hashW : T → S) (v : SelectiveVec T) : Option T :=
  match v.inner with
  | [] => none
  | [first] => some first
  | first :: _ =>
    if v.weighted then some (rendezvousLoop hashW (0, first) v.inner).2
    else some (rendezvousLoop hashU (0, first) v.inner).2

/-- `pick_rendezvous_n`: the nodes by non-increasing score (the `u64`
    scores cast by `toF`), at most `n` of them. -/
def pickRendezvousN (toF : Nat → S) (hashU : T → Nat) (hashW : T → S) (v : SelectiveVec T) (n : Nat) :
    Option (List T) :=
  match v.inner with
  | [] => none
  | [first] => some [first]
  | _ =>
    let nodes := v.inner.map fun item => (item, if v.weighted then hashW item else toF (hashU item))
    some (((nodes.mergeSort fun a b => b.2 ≤ a.2).take n).map (·.1))

/-- The loop ends on the highest score, at least the seed, held by the seed
    node or by one of the items. -/
theorem rendezvousLoop_spec (score : T → S) (acc : S × T) (items : List T) :
    (∀ y ∈ items, score y ≤ (rendezvousLoop score acc items).1) ∧ acc.1 ≤ (rendezvousLoop score acc items).1 ∧
      (rendezvousLoop score acc items = acc ∨
        (rendezvousLoop score acc items).2 ∈ items ∧
          (rendezvousLoop score acc items).1 = score (rendezvousLoop score acc items).2) := by
  induction items generalizing acc with
  | nil => exact ⟨by simp, le_rfl, .inl rfl⟩
  | cons item items ih =>
    -- one step, then the rest of the loop from the new running maximum
    simp only [rendezvousLoop, List.foldl_cons] at ih ⊢
    set acc' := if acc.1 < score item then (score item, item) else acc with hacc'
    obtain ⟨hall, hge, hcases⟩ := ih acc'
    have hitem : score item ≤ acc'.1 := by
      rw [hacc']
      split
      · exact le_rfl
      · exact le_of_not_gt ‹_›
    have hacc : acc.1 ≤ acc'.1 := by
      rw [hacc']
      split
      · exact le_of_lt ‹_›
      · exact le_rfl
    refine ⟨?_, le_trans hacc hge, ?_⟩
    · intro y hy
      rcases List.mem_cons.1 hy with rfl | hy
      · exact le_trans hitem hge
      · exact hall y hy
    · rcases hcases with h | ⟨hmem, hscore⟩
      · rw [h, hacc']
        split
        · exact .inr ⟨List.mem_cons_self, rfl⟩
        · exact .inl rfl
      · exact .inr ⟨List.mem_cons_of_mem _ hmem, hscore⟩

/-- A loop over items that all score at most the seed never moves. -/
theorem rendezvousLoop_of_le (score : T → S) (acc : S × T) (items : List T) (h : ∀ y ∈ items, score y ≤ acc.1) :
    rendezvousLoop score acc items = acc := by
  induction items generalizing acc with
  | nil => rfl
  | cons item items ih =>
    simp only [rendezvousLoop, List.foldl_cons]
    rw [if_neg (not_lt_of_ge (h item List.mem_cons_self))]
    exact ih acc fun y hy => h y (List.mem_cons_of_mem _ hy)

/-- Without weights the pick has a maximum `u64` score: every score is at
    least the seed `0`. -/
theorem pickRendezvous_unweighted_max [Zero S] {hashU : T → Nat} {hashW : T → S} {v : SelectiveVec T} {x : T}
    (hw : v.weighted = false) (h : v.pickRendezvous hashU hashW = some x) : ∀ y ∈ v.inner, hashU y ≤ hashU x := by
  unfold pickRendezvous at h
  split at h
  · cases h
  · cases h
    intro y hy
    simp_all
  · rename_i first _ _ hinner
    rw [hw, if_neg Bool.false_ne_true, Option.some.injEq] at h
    obtain ⟨hall, -, hcases⟩ := rendezvousLoop_spec hashU (0, first) v.inner
    rcases hcases with heq | ⟨-, hscore⟩
    · -- no score beats the seed: all are `0`, the first node's too
      rw [heq] at hall
      intro y hy
      have := hall y hy
      simp only at this
      omega
    · intro y hy
      rw [← h, ← hscore]
      exact hall y hy

/-- Three nodes without weights, scored `7 n mod 5`: the pick is the node
    of the highest score. -/
theorem pickRendezvous_unweighted_max_three :
    (⟨false, [1, 2, 3], []⟩ : SelectiveVec Nat).pickRendezvous (fun n => n * 7 % 5) (fun _ => (0 : ℤ)) = some 2 ∧
      ∀ y ∈ [1, 2, 3], y * 7 % 5 ≤ 2 * 7 % 5 :=
  ⟨by decide, @pickRendezvous_unweighted_max Nat ℤ _ _ (fun n => n * 7 % 5) (fun _ => 0) ⟨false, [1, 2, 3], []⟩ 2
    rfl (by decide)⟩

/-- With weights, scores that are never positive leave the loop on the
    first node, whatever the scores of the others. -/
theorem pickRendezvous_weighted_first [Zero S] {hashU : T → Nat} {hashW : T → S} {v : SelectiveVec T}
    {first : T} {rest : List T} (hinner : v.inner = first :: rest) (hw : v.weighted = true)
    (hneg : ∀ y ∈ v.inner, hashW y ≤ 0) : v.pickRendezvous hashU hashW = some first := by
  unfold pickRendezvous
  split
  · simp_all
  · simp_all
  · rename_i first' _ _ hinner'
    rw [hinner] at hinner'
    cases hinner'
    rw [if_pos hw, rendezvousLoop_of_le hashW (0, first) v.inner hneg]

end Rendezvous

/-! ## Ketama -/

/-- `ketama_ring_idx`: where the key's hash is, or would be inserted, in the
    ring; past the last point it wraps to the first. -/
def ketamaRingIdx (ring : List (Nat × Nat)) (hash : Nat) : Nat :=
  match binarySearch (ring.map (·.2)) hash with
  | .ok i => i
  | .error i => if i ≥ ring.length then 0 else i

/-- `pick_ketama`; `keyHash` is the `crc32` of the key.  `none` is a
    panic: no nodes, or an index out of the ring. -/
def pickKetama (v : SelectiveVec T) (keyHash : Nat) : Option T :=
  match v.inner with
  | [] => none
  | [first] => some first
  | _ => do
    let node ← v.ketamaRing[ketamaRingIdx v.ketamaRing keyHash]?
    v.inner[node.1]?

section Ketama

variable {weight : T → ℚ} {pointHash : T → Nat → Nat}

theorem length_nodePoints (node : T) (count prev : Nat) :
    (nodePoints pointHash node count prev).length = count := by
  induction count generalizing prev with
  | zero => rfl
  | succ count ih => simp [nodePoints, ih]

/-- Before deduplication the ring holds `weight_u32 * 160` points of every
    node. -/
theorem ringPoints_count (nodes : List T) (k : Nat) {i : Nat} (hi : i < nodes.length) :
    (ringPoints weight pointHash k nodes).countP (·.1 = k + i) = weightU32 (weight nodes[i]) * pointMultiple := by
  induction nodes generalizing k i with
  | nil => exact absurd hi (Nat.not_lt_zero _)
  | cons node nodes ih =>
    simp only [ringPoints, List.countP_append, List.countP_map]
    cases i with
    | zero =>
      -- the node's own points, and none of the later nodes'
      have hrest : (ringPoints weight pointHash (k + 1) nodes).countP (·.1 = k) = 0 := by
        refine List.countP_eq_zero.2 fun p hp => ?_
        have := ringPoints_index_ge hp
        simp only [decide_eq_true_eq]
        omega
      simp [hrest, Function.comp_def, length_nodePoints]
    | succ i =>
      have hown : (nodePoints pointHash node (weightU32 (weight node) * pointMultiple) 0).countP
          ((fun p : Nat × Nat => decide (p.1 = k + (i + 1))) ∘ (k, ·)) = 0 :=
        List.countP_eq_zero.2 fun _ _ => by simp
      rw [hown, Nat.zero_add, show k + (i + 1) = k + 1 + i by omega, ih (k + 1) (by simpa using hi)]
      rfl
where
  ringPoints_index_ge {k : Nat} {nodes : List T} {p : Nat × Nat} (hp : p ∈ ringPoints weight pointHash k nodes) :
      k ≤ p.1 := by
    induction nodes generalizing k with
    | nil => cases hp
    | cons node nodes ih =>
      simp only [ringPoints, List.mem_append, List.mem_map] at hp
      rcases hp with ⟨h, -, rfl⟩ | hp
      · exact le_rfl
      · exact Nat.le_of_succ_le (ih hp)

theorem mem_ringPoints {k : Nat} {nodes : List T} {p : Nat × Nat} (hp : p ∈ ringPoints weight pointHash k nodes) :
    k ≤ p.1 ∧ p.1 < k + nodes.length := by
  induction nodes generalizing k with
  | nil => cases hp
  | cons node nodes ih =>
    simp only [ringPoints, List.mem_append, List.mem_map] at hp
    rcases hp with ⟨h, -, rfl⟩ | hp
    · simp
    · have := ih hp
      simp only [List.length_cons]
      omega

/-- Every ring point names one of the nodes. -/
theorem ketamaRingCreate_index_lt (nodes : List T) {p : Nat × Nat}
    (hp : p ∈ ketamaRingCreate weight pointHash nodes) : p.1 < nodes.length := by
  have hsub := List.destutter_sublist (fun a b : Nat × Nat => a.2 ≠ b.2)
    ((ringPoints weight pointHash 0 nodes).mergeSort fun a b => a.2 ≤ b.2)
  have hmem := List.mem_mergeSort.1 (hsub.subset hp)
  have := (mem_ringPoints hmem).2
  omega

/-- The ring is sorted by hash, without repeats: the sort orders it and
    `dedup_by` removes the repeats, which the sort made adjacent. -/
theorem ketamaRingCreate_sorted (nodes : List T) :
    (ketamaRingCreate weight pointHash nodes).Pairwise (fun a b => a.2 < b.2) := by
  set sorted := (ringPoints weight pointHash 0 nodes).mergeSort fun a b => a.2 ≤ b.2
  have hle : sorted.Pairwise (fun a b => a.2 ≤ b.2) := by
    have := @List.pairwise_mergeSort _ (fun a b : Nat × Nat => decide (a.2 ≤ b.2))
      (fun a b c hab hbc => by simp only [decide_eq_true_eq] at *; omega)
      (fun a b => by simp only [Bool.or_eq_true, decide_eq_true_eq]; omega) (ringPoints weight pointHash 0 nodes)
    simpa using this
  have hle' := hle.sublist (List.destutter_sublist (fun a b : Nat × Nat => a.2 ≠ b.2) sorted)
  have hne := List.isChain_destutter (fun a b : Nat × Nat => a.2 ≠ b.2) sorted
  have hlt : List.IsChain (fun a b : Nat × Nat => a.2 < b.2) (sorted.destutter fun a b => a.2 ≠ b.2) := by
    refine List.isChain_iff_getElem.2 fun i hi => lt_of_le_of_ne ?_ (List.isChain_iff_getElem.1 hne i hi)
    exact List.pairwise_iff_getElem.1 hle' i (i + 1) (by omega) hi (Nat.lt_succ_self i)
  exact @List.IsChain.pairwise _ _ _ ⟨fun h₁ h₂ => lt_trans h₁ h₂⟩ hlt

/-- Nodes of weight at most zero have no points: with all such, the ring is
    empty. -/
theorem ketamaRingCreate_eq_nil {nodes : List T} (h : ∀ x ∈ nodes, weightU32 (weight x) = 0) :
    ketamaRingCreate weight pointHash nodes = [] := by
  have hpoints : ∀ k, ringPoints weight pointHash k nodes = [] := by
    induction nodes with
    | nil => exact fun _ => rfl
    | cons node nodes ih =>
      intro k
      simp only [ringPoints, h node List.mem_cons_self, Nat.zero_mul, nodePoints, List.map_nil, List.nil_append]
      exact ih (fun x hx => h x (List.mem_cons_of_mem _ hx)) (k + 1)
  rw [ketamaRingCreate, hpoints 0, List.mergeSort_nil, List.destutter_nil]

/-- A node of positive `weight_u32` has points, which no deduplication
    removes all of. -/
theorem ketamaRingCreate_ne_nil {nodes : List T} (h : ∃ x ∈ nodes, 0 < weightU32 (weight x)) :
    ketamaRingCreate weight pointHash nodes ≠ [] := by
  obtain ⟨x, hx, hw⟩ := h
  obtain ⟨i, hi, rfl⟩ := List.mem_iff_getElem.1 hx
  have hcount : (ringPoints weight pointHash 0 nodes).countP (·.1 = 0 + i) =
      weightU32 (weight nodes[i]) * pointMultiple :=
    ringPoints_count nodes 0 hi
  have hpos : 0 < weightU32 (weight nodes[i]) * pointMultiple := Nat.mul_pos hw (by decide)
  have hpoints : ringPoints weight pointHash 0 nodes ≠ [] := by
    intro hnil
    rw [hnil, List.countP_nil] at hcount
    omega
  rw [ketamaRingCreate, Ne, List.destutter_eq_nil, ← List.length_eq_zero_iff, List.length_mergeSort,
    List.length_eq_zero_iff]
  exact hpoints

/-- Where `ketama_ring_idx` lands on a sorted ring: the first point at or
    after the key's hash, or the first point when there is none. -/
theorem ketamaRingIdx_spec {ring : List (Nat × Nat)} (hsorted : ring.Pairwise (fun a b => a.2 < b.2))
    (hne : ring ≠ []) (hash : Nat) :
    ring[ketamaRingIdx ring hash]? = some ((ring.find? fun p => decide (hash ≤ p.2)).getD (ring.head hne)) := by
  have hsorted' : (ring.map (·.2)).Pairwise (· < ·) := List.pairwise_map.2 hsorted
  have hlen := List.length_pos_of_ne_nil hne
  unfold ketamaRingIdx
  split
  · -- the hash is a point: it is the first at or after itself
    rename_i i hi
    obtain ⟨hi', hieq⟩ := binarySearch_ok hi
    rw [List.length_map] at hi'
    have hfind : (ring.find? fun p => decide (hash ≤ p.2)) = some ring[i] := by
      refine List.find?_eq_some_iff_getElem.2 ⟨by simpa using (List.getElem_map _ ▸ hieq).ge, i, hi', rfl, ?_⟩
      intro j hj
      have := List.pairwise_iff_getElem.1 hsorted j i (by omega) hi' hj
      simp only [List.getElem_map] at hieq
      simp only [Bool.not_eq_eq_eq_not, Bool.not_true, decide_eq_false_iff_not, not_le]
      omega
    rw [hfind, List.getElem?_eq_getElem hi']
    rfl
  · rename_i j hj
    obtain ⟨hnotin, hcount⟩ := binarySearch_error hj
    have hbelow : ∀ k (hk : k < ring.length), k < j → ring[k].2 < hash := by
      intro k hk hkj
      by_contra hge
      have := hsorted'.countP_lt_le (i := k) (by simpa using hk) (x := hash) (by simpa using hge)
      omega
    split
    · -- past the last point: every point is below the hash, so wrap to the first
      rename_i hjlen
      have hnone : (ring.find? fun p => decide (hash ≤ p.2)) = none := by
        refine List.find?_eq_none.2 fun p hp => ?_
        obtain ⟨k, hk, rfl⟩ := List.mem_iff_getElem.1 hp
        have := hbelow k hk (by omega)
        simpa using this
      rw [hnone, List.getElem?_eq_getElem hlen, Option.getD_none, List.head_eq_getElem]
    · -- the point the hash would be inserted before is the first above it
      rename_i hjlen
      have hjlt : j < ring.length := by omega
      have habove : hash ≤ ring[j].2 := by
        by_contra hlt
        have := hsorted'.lt_countP_lt (i := j) (by simpa using hjlt) (x := hash) (by simpa using hlt)
        omega
      have hfind : (ring.find? fun p => decide (hash ≤ p.2)) = some ring[j] := by
        refine List.find?_eq_some_iff_getElem.2 ⟨by simpa using habove, j, hjlt, rfl, fun k hk => ?_⟩
        have := hbelow k (by omega) hk
        simp only [Bool.not_eq_eq_eq_not, Bool.not_true, decide_eq_false_iff_not, not_le]
        exact this
      rw [hfind, List.getElem?_eq_getElem hjlt]
      rfl

/-- `pick_ketama` on a vector of at least two nodes with a non-empty sorted
    ring: the node of the first point at or after the key's hash, or of the
    first point. -/
theorem pickKetama_eq {v : SelectiveVec T} (hlen : 2 ≤ v.inner.length)
    (hsorted : v.ketamaRing.Pairwise (fun a b => a.2 < b.2)) (hne : v.ketamaRing ≠ []) (keyHash : Nat) :
    v.pickKetama keyHash =
      v.inner[((v.ketamaRing.find? fun p => decide (keyHash ≤ p.2)).getD (v.ketamaRing.head hne)).1]? := by
  unfold pickKetama
  split
  · simp_all
  · simp_all
  · rw [ketamaRingIdx_spec hsorted hne keyHash]
    rfl

/-- With no ring points `pick_ketama` indexes an empty ring: a panic. -/
theorem pickKetama_eq_none {v : SelectiveVec T} (hlen : 2 ≤ v.inner.length) (hring : v.ketamaRing = [])
    (keyHash : Nat) : v.pickKetama keyHash = none := by
  unfold pickKetama
  split
  · rfl
  · simp_all
  · simp [hring]

/-- On a vector that `build` made from at least two nodes, one of which has
    points, `pick_ketama` does not panic: the ring is sorted and its points
    name nodes of the vector, so the pick is the node of the first point at or
    after the key's hash, or of the first point. -/
theorem pickKetama_build {inner : List T} {v : SelectiveVec T} (hv : build weight pointHash inner = some v)
    (hlen : 2 ≤ inner.length) (hpos : ∃ x ∈ inner, 0 < weightU32 (weight x)) (keyHash : Nat) :
    ∃ hne : v.ketamaRing ≠ [], ∃ p,
      (v.ketamaRing.find? fun p => decide (keyHash ≤ p.2)).getD (v.ketamaRing.head hne) = p ∧
      ∃ h : p.1 < v.inner.length, v.pickKetama keyHash = some v.inner[p.1] := by
  cases inner with
  | nil => cases hv
  | cons first rest =>
    simp only [build, Option.some.injEq] at hv
    subst hv
    set nodes := (first :: rest).mergeSort fun a b => decide (weight b ≤ weight a)
    have hperm : nodes.Perm (first :: rest) := List.mergeSort_perm _ _
    have hne : ketamaRingCreate weight pointHash nodes ≠ [] := by
      obtain ⟨x, hx, hw⟩ := hpos
      exact ketamaRingCreate_ne_nil ⟨x, hperm.mem_iff.2 hx, hw⟩
    -- the point picked is a ring point: the one found, or the first
    have hmem : ((ketamaRingCreate weight pointHash nodes).find? fun p => decide (keyHash ≤ p.2)).getD
        ((ketamaRingCreate weight pointHash nodes).head hne) ∈ ketamaRingCreate weight pointHash nodes := by
      cases hf : (ketamaRingCreate weight pointHash nodes).find? fun p => decide (keyHash ≤ p.2) with
      | none => exact List.head_mem hne
      | some p => exact List.mem_of_find?_eq_some hf
    have hlt := ketamaRingCreate_index_lt nodes hmem
    refine ⟨hne, _, rfl, hlt, ?_⟩
    rw [pickKetama_eq (by simpa [hperm.length_eq] using hlen) (ketamaRingCreate_sorted nodes) hne keyHash]
    exact List.getElem?_eq_getElem hlt

end Ketama

/-! ## Two nodes -/

/-- Two nodes of weights `2` and `1`, whose rendezvous scores for some key
    are `-2` and `-1` (a weighted score `ln(h / u64::MAX) / w` is never
    positive): `pick_rendezvous` returns the first, whose score is the
    lower, since no score beats the seed `0f64`. -/
theorem pickRendezvous_weighted_below_max (pointHash : Nat → Nat → Nat) (hashU : Nat → Nat) :
    ∃ v, build (fun n => if n = 0 then (2 : ℚ) else 1) pointHash [0, 1] = some v ∧
      v.pickRendezvous hashU (fun n => if n = 0 then (-2 : ℤ) else -1) = some 0 ∧
      (if (0 : Nat) = 0 then (-2 : ℤ) else -1) < (if (1 : Nat) = 0 then (-2 : ℤ) else -1) := by
  -- the nodes are already heaviest first, and their weights differ
  have hsort : ([0, 1].mergeSort fun a b : Nat => decide ((if b = 0 then (2 : ℚ) else 1) ≤ if a = 0 then 2 else 1)) =
      [0, 1] :=
    List.mergeSort_of_pairwise (by decide)
  refine ⟨_, rfl, ?_, by decide⟩
  apply pickRendezvous_weighted_first
  · exact hsort
  · dsimp only
    decide
  · rw [hsort]
    dsimp only
    decide

/-- Two nodes of weight `0` (which the config parser accepts) have no ring
    points, and `pick_ketama` panics on the empty ring, whatever the key; a
    weight of `2^26` makes `weight_u32 * 160` overflow `u32`. -/
theorem pickKetama_zero_weights (pointHash : Nat → Nat → Nat) (keyHash : Nat) :
    (∃ v, build (fun _ : Nat => (0 : ℚ)) pointHash [0, 1] = some v ∧ v.pickKetama keyHash = none) ∧
      2 ^ 32 ≤ weightU32 67108864 * pointMultiple := by
  refine ⟨⟨_, rfl, pickKetama_eq_none (by simp) (ketamaRingCreate_eq_nil fun _ _ => by decide) keyHash⟩, by decide⟩

end SelectiveVec

end G3Proxy
