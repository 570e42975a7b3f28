/-
  A left scan that may stop: a step moves a state along a list and can stop
  at an element.  `run` gives how many elements were read when a step
  stopped, or the state reached after the last one.

  * `run_append`: the scan of `xs ++ ys` is the scan of `ys` from where the
    scan of `xs` left off, moved on by `xs.length`; so how an input is cut
    into parts does not change where the scan stops;
  * `run_inl_pos`, `run_inl_le`: a stop comes after at least one and at most
    all of the elements;
  * `run_isLeft_iff_append`: a part stops the scan iff the whole input stops
    it within that part.
-/
import Mathlib.Data.List.Basic

namespace Scan

variable {σ α : Type}

/-- A result read after `n` more elements in front of it. -/
def shift (n : Nat) : Nat ⊕ σ → Nat ⊕ σ
  | .inl k => .inl (n + k)
  | .inr q => .inr q

@[simp] theorem shift_inl (n k : Nat) : (shift n (.inl k) : Nat ⊕ σ) = .inl (n + k) := rfl

@[simp] theorem shift_inr (n : Nat) (q : σ) : (shift n (.inr q) : Nat ⊕ σ) = .inr q := rfl

@[simp] theorem shift_zero (r : Nat ⊕ σ) : shift 0 r = r := by
  cases r <;> simp

theorem shift_shift (m n : Nat) (r : Nat ⊕ σ) : shift m (shift n r) = shift (m + n) r := by
  cases r <;> simp [Nat.add_assoc]

/-- Scan from `q`: `.inl n` when the step stops at the `n`-th element,
    `.inr q'` with the state after all of them. -/
def run (step : σ → α → Option σ) (q : σ) : List α → Nat ⊕ σ
  | [] => .inr q
  | a :: as =>
    match step q a with
    | none => .inl 1
    | some q' => shift 1 (run step q' as)

variable {step : σ → α → Option σ}

@[simp] theorem run_nil (q : σ) : run step q [] = .inr q := rfl

theorem run_cons (q : σ) (a : α) (as : List α) :
    run step q (a :: as) = (step q a).elim (.inl 1) (fun q' => shift 1 (run step q' as)) := by
  simp only [run]
  cases step q a <;> rfl

theorem run_cons_of_step (q q' : σ) (a : α) (as : List α) (h : step q a = some q') :
    run step q (a :: as) = shift 1 (run step q' as) := by
  simp [run_cons, h]

theorem run_append (q : σ) (xs ys : List α) :
    run step q (xs ++ ys) = (run step q xs).elim .inl (fun q' => shift xs.length (run step q' ys)) := by
  induction xs generalizing q with
  | nil => simp
  | cons a xs ih =>
    rw [List.cons_append, run_cons, run_cons]
    cases step q a with
    | none => rfl
    | some q' =>
      -- the first element moves both sides on by one
      simp only [Option.elim_some, ih]
      cases run step q' xs <;> simp [shift_shift, Nat.add_comm]

theorem run_inl_pos {q : σ} {xs : List α} {n : Nat} (h : run step q xs = .inl n) : 0 < n := by
  induction xs generalizing q n with
  | nil => cases h
  | cons a xs ih =>
    rw [run_cons] at h
    cases hs : step q a with
    | none => simp [hs] at h; omega
    | some q' =>
      simp only [hs, Option.elim_some] at h
      cases hr : run step q' xs <;> simp [hr] at h
      omega

theorem run_inl_le {q : σ} {xs : List α} {n : Nat} (h : run step q xs = .inl n) :
    n ≤ xs.length := by
  induction xs generalizing q n with
  | nil => cases h
  | cons a xs ih =>
    rw [run_cons] at h
    cases hs : step q a with
    | none => simp [hs] at h; simp; omega
    | some q' =>
      simp only [hs, Option.elim_some] at h
      cases hr : run step q' xs with
      | inl k => simp [hr] at h; have := ih hr; simp; omega
      | inr _ => simp [hr] at h

/-- A part stops the scan exactly when the scan of a longer input stops
    within that part. -/
theorem run_isLeft_iff_append (q : σ) (xs ys : List α) :
    (run step q xs).isLeft = true ↔ ∃ n, run step q (xs ++ ys) = .inl n ∧ n ≤ xs.length := by
  rw [run_append]
  cases hx : run step q xs with
  | inl n => simpa using run_inl_le hx
  | inr q' =>
    -- a stop in `ys` comes after all of `xs`
    simp only [Sum.isLeft_inr, Sum.elim_inr, Bool.false_eq_true, false_iff, not_exists, not_and]
    intro n hn
    cases hy : run step q' ys with
    | inl k => rw [hy] at hn; simp at hn; have := run_inl_pos hy; omega
    | inr _ => rw [hy] at hn; simp at hn

end Scan
