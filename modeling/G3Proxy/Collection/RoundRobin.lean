/-
  Round-robin picking (g3-types `collection/selective_vec.rs`,
  `pick_round_robin` and `pick_round_robin_n`).

  `rr_id` is an `AtomicUsize` beside the nodes; here its value is passed in
  and the value stored back is returned.  Calls are made one after another,
  so each `compare_exchange` succeeds at its first try and a call is one
  load and one store.  A slice out of range is a panic, `none`.

  * `pickRoundRobin_eq` and `pickRoundRobinN_eq`: from an `rr_id` below the
    length, a call returns the first `min(n, len)` nodes of the nodes
    rotated to `rr_id` (one node for `pick_round_robin`) and moves `rr_id`
    on by as many, modulo the length.
  * `pickRun_walks_cyclically`: over any sequence of calls, `rr_id` stays
    below the length, each call returns as many nodes as it should, none
    twice, and all of them together read the nodes round and round from the
    first.
-/
import Mathlib.Data.List.Perm.Subperm
import G3Proxy.Collection.SelectiveVec

namespace G3Proxy

namespace SelectiveVec

variable {T : Type}

/-- `pick_round_robin` with `rr_id` holding `rrId`: the node and the value
    stored back; `none` is the panic on no nodes. -/
def pickRoundRobin (v : SelectiveVec T) (rrId : Nat) : Option (T × Nat) :=
  match v.inner with
  | [] => none
  | [a] => some (a, rrId)
  | a :: _ :: _ =>
    let id := rrId
    let next := if id + 1 ≥ v.inner.length then 0 else id + 1
    some (v.inner[id]?.getD a, next)

/-- `pick_round_robin_n` with `rr_id` holding `rrId`: the nodes and the
    value stored back.  A read that passes the end wraps to the front. -/
def pickRoundRobinN (v : SelectiveVec T) (rrId n : Nat) : Option (List T × Nat) :=
  match v.inner with
  | [] => none
  | [a] => some ([a], rrId)
  | _ :: _ :: _ =>
    let len := v.inner.length
    let n := min n len
    let id := rrId
    let endIdx := if id + n ≥ len then (id + n) % len else id + n
    if endIdx ≤ id then
      ((v.inner.sliceFrom? id).bind fun r => (v.inner.slice? 0 endIdx).map (r ++ ·)).map (·, endIdx)
    else (v.inner.slice? id endIdx).map (·, endIdx)

/-- A call of either pick. -/
inductive RoundRobinCall where
  | one
  | many (n : Nat)
  deriving Repr, DecidableEq

/-- How many nodes a call should return, out of `len`. -/
def RoundRobinCall.count (len : Nat) : RoundRobinCall → Nat
  | .one => 1
  | .many n => min n len

/-- A call made with `rr_id` holding `rrId`: the nodes it returns and the
    value stored back. -/
def RoundRobinCall.pick (v : SelectiveVec T) (rrId : Nat) : RoundRobinCall → Option (List T × Nat)
  | .one => (v.pickRoundRobin rrId).map fun (x, r) => ([x], r)
  | .many n => v.pickRoundRobinN rrId n

/-- Calls one after another from `rr_id` holding `rrId`: what each returns,
    and the value of `rr_id` at the end. -/
def pickRun (v : SelectiveVec T) : Nat → List RoundRobinCall → Option (List (List T) × Nat)
  | r, [] => some ([], r)
  | r, c :: cs =>
    (c.pick v r).bind fun (xs, r') => (v.pickRun r' cs).map fun (xss, r'') => (xs :: xss, r'')

/-- The test `pick_two_from_three`: two nodes, then the third and the first. -/
example : (⟨false, [1, 2, 3], []⟩ : SelectiveVec Nat).pickRun 0 [.many 2, .many 2] =
    some ([[1, 2], [3, 1]], 1) := by
  decide

/-! ## One call -/

section Call

variable {v : SelectiveVec T} {r : Nat}

theorem pickRoundRobin_eq (hlen : 2 ≤ v.inner.length) (hr : r < v.inner.length) :
    v.pickRoundRobin r = some (v.inner[r], (r + 1) % v.inner.length) := by
  have hnext : (if r + 1 ≥ v.inner.length then 0 else r + 1) = (r + 1) % v.inner.length := by
    split
    · rw [show r + 1 = v.inner.length by omega, Nat.mod_self]
    · rw [Nat.mod_eq_of_lt (by omega)]
  unfold pickRoundRobin
  split
  · rename_i h
    simp [h] at hlen
  · rename_i a h
    simp [h] at hlen
  · dsimp only
    rw [hnext, List.getElem?_eq_getElem hr, Option.getD_some]

/-- The wrapped read: the rest from `id`, then the front up to `end`, is a
    prefix of the rotation. -/
theorem drop_append_take_eq_take_rotate {l : List T} {id m : Nat} (hid : id < l.length) (hm : m ≤ l.length)
    (hwrap : l.length ≤ id + m) : l.drop id ++ l.take (id + m - l.length) = (l.rotate id).take m := by
  have hrest : (l.drop id).length ≤ m := by
    rw [List.length_drop]
    omega
  rw [List.rotate_eq_drop_append_take (Nat.le_of_lt hid), List.take_append,
    List.take_of_length_le hrest, List.take_take, List.length_drop,
    show min (m - (l.length - id)) id = id + m - l.length by omega]

theorem pickRoundRobinN_eq (hlen : 2 ≤ v.inner.length) (hr : r < v.inner.length) {n : Nat} (hn : 1 ≤ n) :
    v.pickRoundRobinN r n =
      some ((v.inner.rotate r).take (min n v.inner.length), (r + min n v.inner.length) % v.inner.length) := by
  have hm1 : 1 ≤ min n v.inner.length := Nat.le_min.2 ⟨hn, by omega⟩
  have hm : min n v.inner.length ≤ v.inner.length := Nat.min_le_right _ _
  unfold pickRoundRobinN
  split
  · rename_i h
    simp [h] at hlen
  · rename_i a h
    simp [h] at hlen
  · by_cases hwrap : r + min n v.inner.length ≥ v.inner.length
    · -- the read wraps: `end` is what passes the length, at most `id`
      have hend : (r + min n v.inner.length) % v.inner.length = r + min n v.inner.length - v.inner.length := by
        rw [Nat.mod_eq_sub_mod hwrap, Nat.mod_eq_of_lt (by omega)]
      have hlo : r + min n v.inner.length - v.inner.length ≤ r := by omega
      have hhi : r + min n v.inner.length - v.inner.length ≤ v.inner.length := by omega
      simp only [if_pos hwrap, hend, if_pos hlo, List.sliceFrom?_eq (Nat.le_of_lt hr),
        List.slice?_eq (Nat.zero_le _) hhi, Option.bind_some, Option.map_some, List.drop_zero, Nat.sub_zero,
        drop_append_take_eq_take_rotate hr hm hwrap]
    · -- a straight read from `id`
      have hlt : r + min n v.inner.length < v.inner.length := Nat.lt_of_not_le hwrap
      have hfits : min n v.inner.length ≤ (v.inner.drop r).length := by
        rw [List.length_drop]
        omega
      simp only [if_neg hwrap, if_neg (show ¬ r + min n v.inner.length ≤ r by omega),
        List.slice?_eq (Nat.le_add_right r _) (Nat.le_of_lt hlt), Option.map_some, Nat.mod_eq_of_lt hlt,
        Nat.add_sub_cancel_left, List.rotate_eq_drop_append_take (Nat.le_of_lt hr),
        List.take_append_of_le_length hfits]

/-- Every call from an `rr_id` below the length reads `count` nodes of the
    rotation and moves `rr_id` on by as many. -/
theorem RoundRobinCall.pick_eq (hlen : 2 ≤ v.inner.length) (hr : r < v.inner.length) {c : RoundRobinCall}
    (hc : ∀ n, c = .many n → 1 ≤ n) :
    c.pick v r = some ((v.inner.rotate r).take (c.count v.inner.length),
      (r + c.count v.inner.length) % v.inner.length) := by
  cases c with
  | one =>
    have hhead : (v.inner.rotate r).take 1 = [v.inner[r]] := by
      rw [List.rotate_eq_drop_append_take (Nat.le_of_lt hr), List.drop_eq_getElem_cons hr]
      rfl
    simp [RoundRobinCall.pick, RoundRobinCall.count, pickRoundRobin_eq hlen hr, hhead]
  | many n => exact pickRoundRobinN_eq hlen hr (hc n rfl)

end Call

/-! ## Runs of calls -/

theorem count_le (len : Nat) (hlen : 1 ≤ len) (c : RoundRobinCall) : c.count len ≤ len := by
  cases c with
  | one => exact hlen
  | many n => exact Nat.min_le_right _ _

/-- The nodes a run returns read `inner` round and round from `r`, where
    the run leaves `rr_id`; each call returns `count` of the nodes, none of
    them twice. -/
theorem pickRun_spec {v : SelectiveVec T} (hlen : 2 ≤ v.inner.length) (calls : List RoundRobinCall)
    (hcalls : ∀ n, .many n ∈ calls → 1 ≤ n) :
    ∀ r, r < v.inner.length → ∃ outs r', v.pickRun r calls = some (outs, r') ∧
      r' = (r + outs.flatten.length) % v.inner.length ∧
      List.Forall₂ (fun c xs => xs.length = c.count v.inner.length ∧ xs.Subperm v.inner) calls outs ∧
      List.Cyclic v.inner r outs.flatten := by
  induction calls with
  | nil =>
    intro r hr
    exact ⟨[], r, rfl, (Nat.mod_eq_of_lt hr).symm, .nil, List.cyclic_nil _ _⟩
  | cons c cs ih =>
    intro r hr
    have hm := count_le v.inner.length (by omega) c
    have hpick := RoundRobinCall.pick_eq hlen hr (c := c) fun n hn => hcalls n (by simp [hn])
    set m := c.count v.inner.length
    set xs := (v.inner.rotate r).take m
    have hxs : xs.length = m := by simp [xs, hm]
    obtain ⟨outs, r', hrun, hr', hall, hcyc⟩ :=
      ih (fun n hn => hcalls n (List.mem_cons_of_mem c hn)) ((r + m) % v.inner.length) (Nat.mod_lt _ (by omega))
    refine ⟨xs :: outs, r', ?_, ?_, .cons ⟨hxs, ?_⟩ hall, ?_⟩
    · simp [pickRun, hpick, hrun]
    · rw [hr', Nat.mod_add_mod, List.flatten_cons, List.length_append, hxs, Nat.add_assoc]
    · exact (List.take_sublist _ _).subperm.trans (List.rotate_perm _ _).subperm
    · rw [List.flatten_cons]
      exact (List.cyclic_take_rotate hm).append (by rwa [hxs])

/-- Round-robin picking walks the nodes cyclically: from a freshly built
    vector of at least two nodes, over any calls (each `n` at least one),
    `rr_id` stays below the length, each call returns `1` or `min(n, len)`
    nodes with no node twice, and all returned nodes in order read `inner[0]`,
    `inner[1]`, … round and round. -/
theorem pickRun_walks_cyclically (v : SelectiveVec T) (hlen : 2 ≤ v.inner.length) (calls : List RoundRobinCall)
    (hcalls : ∀ n, .many n ∈ calls → 1 ≤ n) :
    ∃ outs rrId, v.pickRun 0 calls = some (outs, rrId) ∧ rrId < v.inner.length ∧
      List.Forall₂ (fun c xs => xs.length = c.count v.inner.length ∧ xs.Subperm v.inner) calls outs ∧
      ∀ k, k < outs.flatten.length → outs.flatten[k]? = v.inner[k % v.inner.length]? := by
  obtain ⟨outs, r', hrun, hr', hall, hcyc⟩ := pickRun_spec hlen calls hcalls 0 (by omega)
  refine ⟨outs, r', hrun, hr' ▸ Nat.mod_lt _ (by omega), hall, fun k hk => ?_⟩
  rw [hcyc k hk, Nat.zero_add]

theorem pickRun_walks_cyclically_twoOfThree :
    2 ≤ [1, 2, 3].length ∧ (∀ n, RoundRobinCall.many n ∈ [.many 2, .many 2] → 1 ≤ n) ∧
    ∃ outs rrId, (⟨false, [1, 2, 3], []⟩ : SelectiveVec Nat).pickRun 0 [.many 2, .many 2] = some (outs, rrId) ∧
      rrId < [1, 2, 3].length ∧
      List.Forall₂ (fun (c : RoundRobinCall) (xs : List Nat) => xs.length = c.count [1, 2, 3].length ∧
        xs.Subperm [1, 2, 3]) [.many 2, .many 2] outs ∧
      ∀ k, k < outs.flatten.length → outs.flatten[k]? = [1, 2, 3][k % [1, 2, 3].length]? := by
  have hcalls : ∀ n, RoundRobinCall.many n ∈ [RoundRobinCall.many 2, .many 2] → 1 ≤ n := by
    intro n hn
    simp only [List.mem_cons, RoundRobinCall.many.injEq, List.not_mem_nil, or_false, or_self] at hn
    omega
  exact ⟨by decide, hcalls, pickRun_walks_cyclically ⟨false, [1, 2, 3], []⟩ (by decide) _ hcalls⟩

end SelectiveVec

end G3Proxy
