/-
  A timer queue keyed by handles, in the manner of tokio-util's DelayQueue:
  the interface a client calls, the laws its proofs rest on, and one
  realisation of them.

  Inserting an item hands back a key; the deadline of a live key can be reset
  in place; and polling takes out an entry whose deadline has passed, handing
  back its item and forgetting its key.  `insert_at` and `reset_at` panic on a
  deadline the queue cannot hold (`InReach`), and `reset_at` on a key it does
  not hold.

  * `DelayQueueOps`: `new`, `insert_at`, `reset_at` and `poll_expired`, with
    the live entries `(key, item, deadline)` as the view a client reasons
    through; `DelayQueueOps.Spec`: how each operation changes that view, and
    that it does not panic on a live key and a deadline in reach;
  * `entriesFor q a`: the live entries that hold item `a`, the view a cache
    keyed by the same items reads the queue through, and how the operations
    change it (`entriesFor_insertAt`, `entriesFor_resetAt`,
    `entriesFor_pollExpired`);
  * `DelayQueue`: the queue as tokio-util keeps it, on a timer wheel of six
    levels of 64 slots, counted in milliseconds from the instant the queue
    was made, up to the point the wheel has turned to: a deadline more than
    `maxDuration` milliseconds past that point is out of reach.  The wheel
    turns as entries expire.  `DelayQueue.ops_spec`: it meets the laws.
-/
import Mathlib.Data.List.Nodup

/-- The operations of a timer queue over a queue type `Q` holding items `α`;
`entries` is the view of the live entries as `(key, item, deadline)`, and
`InReach q when` says that `q` takes the deadline `when`. -/
structure DelayQueueOps (α Q : Type) where
  new : Nat → Q
  insertAt : Q → α → Nat → Option (Nat × Q)
  resetAt : Q → Nat → Nat → Option Q
  pollExpired : Q → Nat → Option (α × Q)
  entries : Q → List (Nat × α × Nat)
  InReach : Q → Nat → Prop

namespace DelayQueueOps

variable {α Q : Type}

/-- Move the deadline of entry `e` to `when` if it is the entry of `k`. -/
def retime (k when : Nat) (e : Nat × α × Nat) : Nat × α × Nat :=
  if e.1 = k then (e.1, e.2.1, when) else e

@[simp] theorem retime_fst (k when : Nat) (e : Nat × α × Nat) : (retime k when e).1 = e.1 := by
  unfold retime; split <;> rfl

@[simp] theorem retime_item (k when : Nat) (e : Nat × α × Nat) :
    (retime k when e).2.1 = e.2.1 := by
  unfold retime; split <;> rfl

/-- Retiming a key that none of the entries has changes nothing. -/
theorem map_retime_of_forall_ne {k when : Nat} {l : List (Nat × α × Nat)}
    (h : ∀ e ∈ l, e.1 ≠ k) : l.map (retime k when) = l := by
  conv_rhs => rw [← List.map_id l]
  exact List.map_congr_left fun e he => by simp [retime, h e he]

/-- The laws of a timer queue: live keys are told apart; a new queue is
empty; `insert_at` adds an entry under the key it hands back, `reset_at`
moves the deadline of its key, and `poll_expired` takes out the entry of a
live key; the first two do not panic on a deadline in reach, nor the
second and third on a live key. -/
structure Spec (D : DelayQueueOps α Q) : Prop where
  keys_nodup : ∀ q, ((D.entries q).map Prod.fst).Nodup
  entries_new : ∀ t, D.entries (D.new t) = []
  insertAt_isSome : ∀ q a when, D.InReach q when → (D.insertAt q a when).isSome
  entries_insertAt : ∀ {q a when k q'}, D.insertAt q a when = some (k, q') →
    D.entries q' = (k, a, when) :: D.entries q
  resetAt_isSome : ∀ {q k a w} when, (k, a, w) ∈ D.entries q → D.InReach q when →
    (D.resetAt q k when).isSome
  entries_resetAt : ∀ {q k when q'}, D.resetAt q k when = some q' →
    D.entries q' = (D.entries q).map (retime k when)
  pollExpired_isSome : ∀ {q k a w}, (k, a, w) ∈ D.entries q →
    (D.pollExpired q k).map (·.1) = some a
  entries_pollExpired : ∀ {q k a q'}, D.pollExpired q k = some (a, q') →
    (∃ w, (k, a, w) ∈ D.entries q) ∧ D.entries q' = (D.entries q).filter (·.1 ≠ k)

section Laws

variable {D : DelayQueueOps α Q} (hD : D.Spec)
include hD

/-- Two live entries with one key are one entry. -/
theorem eq_of_key_eq {q : Q} {e e' : Nat × α × Nat} (he : e ∈ D.entries q)
    (he' : e' ∈ D.entries q) (hk : e.1 = e'.1) : e = e' :=
  List.inj_on_of_nodup_map (hD.keys_nodup q) he he' hk

theorem insertAt_eq_some {q : Q} (a : α) {when : Nat} (h : D.InReach q when) :
    ∃ k q', D.insertAt q a when = some (k, q') := by
  obtain ⟨⟨k, q'⟩, hkq⟩ := Option.isSome_iff_exists.1 (hD.insertAt_isSome q a when h)
  exact ⟨k, q', hkq⟩

theorem resetAt_eq_some {q : Q} {k : Nat} {a : α} {w when : Nat}
    (h : (k, a, w) ∈ D.entries q) (hr : D.InReach q when) : ∃ q', D.resetAt q k when = some q' :=
  Option.isSome_iff_exists.1 (hD.resetAt_isSome when h hr)

theorem pollExpired_eq_some {q : Q} {k : Nat} {a : α} {w : Nat}
    (h : (k, a, w) ∈ D.entries q) : ∃ q', D.pollExpired q k = some (a, q') := by
  obtain ⟨⟨a', q'⟩, hp, ha⟩ := Option.map_eq_some_iff.1 (hD.pollExpired_isSome h)
  exact ⟨q', by rw [hp, show a' = a from ha]⟩

end Laws

section Items

variable [DecidableEq α] (D : DelayQueueOps α Q)

/-- The live entries that hold item `a`. -/
def entriesFor (q : Q) (a : α) : List (Nat × α × Nat) :=
  (D.entries q).filter (·.2.1 = a)

variable {D}

@[simp] theorem mem_entriesFor {q : Q} {a : α} {e : Nat × α × Nat} :
    e ∈ D.entriesFor q a ↔ e ∈ D.entries q ∧ e.2.1 = a := by
  simp [entriesFor]

/-- A live key holds one item: the entries of any other item have other
keys. -/
theorem key_ne_of_item_ne (hD : D.Spec) {q : Q} {k w : Nat} {a b : α}
    (hmem : (k, a, w) ∈ D.entries q) (hab : b ≠ a) : ∀ e ∈ D.entriesFor q b, e.1 ≠ k := by
  intro e he hek
  have he' := mem_entriesFor.1 he
  have := eq_of_key_eq hD he'.1 hmem hek
  exact hab (he'.2.symm.trans (congrArg (·.2.1) this))

theorem entriesFor_new (hD : D.Spec) (t : Nat) (b : α) : D.entriesFor (D.new t) b = [] := by
  simp [entriesFor, hD.entries_new]

theorem entriesFor_insertAt (hD : D.Spec) {q q' : Q} {a : α} {when k : Nat}
    (h : D.insertAt q a when = some (k, q')) (b : α) :
    D.entriesFor q' b = if a = b then (k, a, when) :: D.entriesFor q b else D.entriesFor q b := by
  by_cases hab : a = b <;> simp [entriesFor, hD.entries_insertAt h, hab]

theorem entriesFor_resetAt (hD : D.Spec) {q q' : Q} {k when : Nat} (h : D.resetAt q k when = some q')
    (b : α) : D.entriesFor q' b = (D.entriesFor q b).map (retime k when) := by
  simp [entriesFor, hD.entries_resetAt h, List.filter_map, Function.comp_def]

theorem entriesFor_pollExpired (hD : D.Spec) {q q' : Q} {k : Nat} {a : α}
    (h : D.pollExpired q k = some (a, q')) (b : α) :
    D.entriesFor q' b = (D.entriesFor q b).filter (·.1 ≠ k) := by
  simp [entriesFor, (hD.entries_pollExpired h).2, List.filter_filter, Bool.and_comm]

end Items

end DelayQueueOps

/-- Live entries as `(key, item, deadline)`, newest first, the instant the
queue was made and how far its wheel has turned, in milliseconds.  Keys are
told apart (`keys_nodup`) and stay below the next key handed out
(`keys_lt`). -/
structure DelayQueue (α : Type) where
  entries : List (Nat × α × Nat)
  nextKey : Nat
  start : Nat
  elapsed : Nat
  keys_nodup : (entries.map Prod.fst).Nodup
  keys_lt : ∀ e ∈ entries, e.1 < nextKey

namespace DelayQueue

open DelayQueueOps (retime)

/-- `MAX_DURATION` of the timer wheel, in milliseconds: six levels of six bits. -/
def maxDuration : Nat := (1 <<< (6 * 6)) - 1

variable {α : Type}

/-- `DelayQueue::new`, made at the instant `start`. -/
def new (start : Nat) : DelayQueue α := ⟨[], 0, start, 0, List.nodup_nil, fun _ h => absurd h List.not_mem_nil⟩

/-- `normalize_deadline`: the milliseconds from the start, rounded up, and
not before the wheel. -/
def normalizeDeadline (q : DelayQueue α) (when : Nat) : Nat :=
  max ((when - q.start + 999999) / 1000000) q.elapsed

/-- The wheel takes a deadline at most `MAX_DURATION` past the point it has
turned to; `insert_idx` panics on one beyond (`InsertError::Invalid`). -/
def InReach (q : DelayQueue α) (when : Nat) : Prop :=
  q.normalizeDeadline when - q.elapsed ≤ maxDuration

instance (q : DelayQueue α) (when : Nat) : Decidable (q.InReach when) :=
  inferInstanceAs (Decidable (_ ≤ _))

/-- `insert_at`: a fresh key for `a`, due at `when`; a deadline out of the
wheel's reach panics. -/
def insertAt (q : DelayQueue α) (a : α) (when : Nat) : Option (Nat × DelayQueue α) :=
  if q.InReach when then
  some (q.nextKey,
    { entries := (q.nextKey, a, when) :: q.entries
      nextKey := q.nextKey + 1
      start := q.start
      elapsed := q.elapsed
      keys_nodup := by
        refine List.nodup_cons.2 ⟨fun h => ?_, q.keys_nodup⟩
        obtain ⟨e, he, hk⟩ := List.mem_map.1 h
        exact absurd (q.keys_lt e he) (by omega)
      keys_lt := by
        rintro e (_ | ⟨_, he⟩)
        · exact Nat.lt_succ_self _
        · exact Nat.lt_succ_of_lt (q.keys_lt e he) })
  else none

/-- Whether `k` is a live key. -/
def contains (q : DelayQueue α) (k : Nat) : Bool := q.entries.any (·.1 == k)

/-- `reset_at`: the entry of `k` is now due at `when`; an unknown key, or a
deadline out of the wheel's reach, panics. -/
def resetAt (q : DelayQueue α) (k when : Nat) : Option (DelayQueue α) :=
  if q.contains k ∧ q.InReach when then
    some { entries := q.entries.map (retime k when)
           nextKey := q.nextKey
           start := q.start
           elapsed := q.elapsed
           keys_nodup := by
             rw [List.map_map]
             have : Prod.fst ∘ retime k when = (Prod.fst : Nat × α × Nat → Nat) := by
               funext e; simp
             rw [this]; exact q.keys_nodup
           keys_lt := by
             intro e he
             obtain ⟨e', he', rfl⟩ := List.mem_map.1 he
             simpa using q.keys_lt e' he' }
  else none

/-- `poll_expired` yielding the entry of `k`: its item is handed back, and
the wheel has turned to its deadline. -/
def pollExpired (q : DelayQueue α) (k : Nat) : Option (α × DelayQueue α) :=
  match q.entries.find? (·.1 = k) with
  | some e =>
    some (e.2.1,
      { entries := q.entries.filter (·.1 ≠ k)
        nextKey := q.nextKey
        start := q.start
        elapsed := q.normalizeDeadline e.2.2
        keys_nodup := q.keys_nodup.sublist (List.filter_sublist.map Prod.fst)
        keys_lt := fun e he => q.keys_lt e (List.mem_of_mem_filter he) })
  | none => none

/-- The queue as an implementation of the interface. -/
def ops : DelayQueueOps α (DelayQueue α) where
  new := new
  insertAt := insertAt
  resetAt := resetAt
  pollExpired := pollExpired
  entries := DelayQueue.entries
  InReach := InReach

/-- The entry `poll_expired` finds for a live key is the entry of that key. -/
theorem find?_key {q : DelayQueue α} {k : Nat} {e : Nat × α × Nat}
    (he : q.entries.find? (·.1 = k) = some e) : e ∈ q.entries ∧ e.1 = k :=
  ⟨List.mem_of_find?_eq_some he, by simpa using List.find?_some he⟩

theorem ops_spec : (ops : DelayQueueOps α (DelayQueue α)).Spec where
  keys_nodup q := q.keys_nodup
  entries_new _ := rfl
  insertAt_isSome q a when (h : q.InReach when) := by
    simp [ops, insertAt, h]
  entries_insertAt h := by
    simp only [ops, insertAt] at h
    split at h
    · cases h
      rfl
    · cases h
  resetAt_isSome {q k a w} when h (hr : q.InReach when) := by
    have : q.contains k = true := List.any_eq_true.2 ⟨_, h, by simp⟩
    simp [ops, resetAt, this, hr]
  entries_resetAt h := by
    simp only [ops, resetAt] at h
    split at h
    · cases h
      rfl
    · cases h
  pollExpired_isSome {q k a w} h := by
    have hfind : (q.entries.find? (·.1 = k)).isSome := List.find?_isSome.2 ⟨(k, a, w), h, by simp⟩
    obtain ⟨e, he⟩ := Option.isSome_iff_exists.1 hfind
    -- the entry found has key `k`, so it is the entry of `k`
    obtain ⟨hmem, hk⟩ := find?_key he
    have hek : e = (k, a, w) := List.inj_on_of_nodup_map q.keys_nodup hmem h hk
    subst hek
    simp [ops, pollExpired, he]
  entries_pollExpired {q k a q'} h := by
    simp only [ops, pollExpired] at h ⊢
    split at h
    · next e he =>
      cases h
      obtain ⟨hmem, hk⟩ := find?_key he
      exact ⟨⟨e.2.2, by rw [← hk]; exact hmem⟩, rfl⟩
    · cases h

end DelayQueue
