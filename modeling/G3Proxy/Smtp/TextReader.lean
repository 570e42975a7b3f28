/-
  The end of an SMTP DATA body as g3-smtp-proto's `TextDataReader` finds it
  (`io/text_reader.rs`): the reader hands on the bytes of its inner reader up
  to and including the end line `.\r\n`, and none after it.

  * `EndChecker.check` is `EndChecker::check`.  A pass looks at the first
    one, two or three bytes of what is left for the rest of an end line
    (`headTest`, the three arms of `match left.len()`), then skips to the
    next line; three flags carry a partial end line from one call to the
    next.
  * `TextDataReader.pollRead` is `poll_read` given what the inner reader
    returned, and `readAll` a run of such reads: one `check` a read, and no
    read once the end is found.
  * `endOfData s` is what the reader is for: the length of the shortest
    prefix of `s` that ends with a line `.\r\n`, lines being what stands
    before the first `\n` and between two of them.
  * `LinePos.step` is a byte automaton for that prefix (`endOfData_eq_run`).
    From the flags of a position `check` scans a segment as the automaton
    does (`check_ofPos`), and the automaton's scan of `s ++ t` is its scan of
    `t` from where `s` left it (`Scan.run_append`): the reader stops at the
    same byte however the stream is cut into reads
    (`textDataReader_stops_at_end_line`).  `check` itself does not look at
    `found`: a segment given to it after the end counts again
    (`checkAll_counts_past_end`).
-/
import G3Proxy.Core.Lists
import G3Proxy.Core.Scan

namespace G3Proxy

/-- `EndChecker`. -/
structure EndChecker where
  checkEmpty : Bool
  checkRN : Bool
  checkN : Bool
  found : Bool
  deriving Repr, DecidableEq

namespace EndChecker

/-- `EndChecker::default`. -/
def default : EndChecker := ⟨true, false, false, false⟩

/-- The flag tests of one pass of `check`, in the arm of `match left.len()`
    that `left` takes: the flags after them, and `some n` where the pass
    returns `n` bytes on from its offset. -/
def headTest (c : EndChecker) : List UInt8 → EndChecker × Option Nat
  -- the `0` arm returns before any test
  | [] => (c, none)
  | [b] =>
    if c.checkN then
      if b = 10 then ({ c with checkN := false, found := true }, some 1)
      else ({ c with checkN := false }, none)
    else if c.checkRN then
      if b = 13 then ({ c with checkRN := false, checkN := true }, some 1)
      else ({ c with checkRN := false }, none)
    else if c.checkEmpty then
      if b = 46 then ({ c with checkEmpty := false, checkRN := true }, some 1)
      else ({ c with checkEmpty := false }, none)
    else (c, none)
  | [b₀, b₁] =>
    if c.checkN then
      if b₀ = 10 then ({ c with checkN := false, found := true }, some 1)
      else ({ c with checkN := false }, none)
    else if c.checkRN then
      if [b₀, b₁] = [13, 10] then ({ c with checkRN := false, found := true }, some 2)
      else ({ c with checkRN := false }, none)
    else if c.checkEmpty then
      if [b₀, b₁] = [46, 13] then ({ c with checkEmpty := false, checkN := true }, some 2)
      else ({ c with checkEmpty := false }, none)
    else (c, none)
  | b₀ :: b₁ :: b₂ :: _ =>
    if c.checkN then
      if b₀ = 10 then ({ c with checkN := false, found := true }, some 1)
      else ({ c with checkN := false }, none)
    else if c.checkRN then
      if [b₀, b₁] = [13, 10] then ({ c with checkRN := false, found := true }, some 2)
      else ({ c with checkRN := false }, none)
    else if c.checkEmpty then
      if [b₀, b₁, b₂] = [46, 13, 10] then ({ c with checkEmpty := false, found := true }, some 3)
      else ({ c with checkEmpty := false }, none)
    else (c, none)

/-- The loop of `check` at `left = data[offset..]`: the flags, and the count
    returned. -/
def checkFrom (c : EndChecker) (offset : Nat) (left : List UInt8) : EndChecker × Nat :=
  match left with
  | [] => (c, offset)
  | b :: rest =>
    match c.headTest (b :: rest) with
    | (c, some n) => (c, offset + n)
    | (c, none) =>
      -- `memchr(b'\n', left)`: skip to the next line
      match (b :: rest).idxOf? 10 with
      | some p => checkFrom { c with checkEmpty := true } (offset + p + 1) ((b :: rest).drop (p + 1))
      | none => (c, offset + (b :: rest).length)
termination_by left.length
decreasing_by simp only [List.length_drop, List.length_cons]; omega

/-- `EndChecker::check`. -/
def check (c : EndChecker) (data : List UInt8) : EndChecker × Nat := c.checkFrom 0 data

/-- `check` called on every segment in turn, the counts summed. -/
def checkAll (c : EndChecker) : List (List UInt8) → EndChecker × Nat
  | [] => (c, 0)
  | s :: ss =>
    let r := c.check s
    let r' := r.1.checkAll ss
    (r'.1, r.2 + r'.2)

theorem checkFrom_cons (c : EndChecker) (offset : Nat) (b : UInt8) (rest : List UInt8) :
    c.checkFrom offset (b :: rest) =
      match c.headTest (b :: rest) with
      | (c, some n) => (c, offset + n)
      | (c, none) =>
        match (b :: rest).idxOf? 10 with
        | some p => checkFrom { c with checkEmpty := true } (offset + p + 1) ((b :: rest).drop (p + 1))
        | none => (c, offset + (b :: rest).length) := by
  rw [checkFrom]

end EndChecker

/-- `TextDataReader`, without its inner reader: what that reader returns is
    passed to `pollRead`. -/
structure TextDataReader where
  ending : EndChecker
  deriving Repr, DecidableEq

namespace TextDataReader

/-- `TextDataReader::new`. -/
def new : TextDataReader := ⟨EndChecker.default⟩

/-- `finished`. -/
def finished (t : TextDataReader) : Bool := t.ending.found

/-- `poll_read` once the inner reader returned `read`: the reader after, and
    how many of the bytes `buf.advance` hands on. -/
def pollRead (t : TextDataReader) (read : List UInt8) : TextDataReader × Nat :=
  if read.isEmpty then (t, 0)
  else
    let r := t.ending.check read
    (⟨r.1⟩, r.2)

/-- Polls while the inner reader's answers `reads` last, the counts summed.
    Once the end is found `poll_read` returns at once, without reading. -/
def readAll (t : TextDataReader) : List (List UInt8) → TextDataReader × Nat
  | [] => (t, 0)
  | read :: reads =>
    if t.finished then (t, 0)
    else
      let r := t.pollRead read
      let r' := r.1.readAll reads
      (r'.1, r.2 + r'.2)

theorem readAll_of_finished {t : TextDataReader} (h : t.finished = true)
    (reads : List (List UInt8)) : t.readAll reads = (t, 0) := by
  cases reads <;> simp [readAll, h]

end TextDataReader

/-- The length of the shortest prefix of `s` that ends with an end line: the
    first line, its `\n` included, that is `.\r\n`. -/
def endOfData (s : List UInt8) : Option Nat :=
  match h : s.idxOf? 10 with
  | none => none
  | some p =>
    if s.take p = [46, 13] then some (p + 1)
    else (endOfData (s.drop (p + 1))).map (p + 1 + ·)
termination_by s.length
decreasing_by have := (List.idxOf?_eq_some_iff.1 h).1; simp; omega

/-! ## A byte automaton for the end line -/

/-- How much of an end line the current line is, as far as its bytes so far
    tell. -/
inductive LinePos where
  /-- no byte of the line yet -/
  | start
  /-- the line so far is `.` -/
  | dot
  /-- the line so far is `.\r` -/
  | dotCr
  /-- the line so far begins no end line -/
  | other
  deriving Repr, DecidableEq

namespace LinePos

/-- One byte; `none` when it completes an end line. -/
def step (q : LinePos) (b : UInt8) : Option LinePos :=
  if b = 10 then (if q = .dotCr then none else some .start)
  else
    match q with
    | .start => if b = 46 then some .dot else some .other
    | .dot => if b = 13 then some .dotCr else some .other
    | _ => some .other

theorem step_nl (q : LinePos) (hq : q ≠ .dotCr) : q.step 10 = some .start := by
  simp [step, hq]

theorem step_other {b : UInt8} (hb : b ≠ 10) : LinePos.other.step b = some .other := by
  simp [step, hb]

theorem step_start_dot : LinePos.start.step 46 = some .dot := by decide

theorem step_dot_dotCr : LinePos.dot.step 13 = some .dotCr := by decide

/-- Only a `\n` can end an end line. -/
theorem step_isSome {b : UInt8} (hb : b ≠ 10) (q : LinePos) : (q.step b).isSome := by
  cases q with
  | start | dot => simp only [step, hb, if_false]; split <;> rfl
  | dotCr | other => simp [step, hb]

/-- Within a line, nothing ends a line that begins no end line. -/
theorem run_other_of_not_mem {l : List UInt8} (h : (10 : UInt8) ∉ l) :
    Scan.run step .other l = .inr .other := by
  induction l with
  | nil => rfl
  | cons b l ih =>
    have hb : b ≠ 10 := fun e => h (e ▸ List.mem_cons_self ..)
    rw [Scan.run_cons_of_step _ _ _ _ (step_other hb), ih (fun hm => h (List.mem_cons_of_mem _ hm))]
    rfl

/-- Within a line, no scan stops. -/
theorem run_isRight_of_not_mem (q : LinePos) {l : List UInt8} (h : (10 : UInt8) ∉ l) :
    ∃ q', Scan.run step q l = .inr q' := by
  induction l generalizing q with
  | nil => exact ⟨q, rfl⟩
  | cons b l ih =>
    have hb : b ≠ 10 := fun e => h (e ▸ List.mem_cons_self ..)
    obtain ⟨q₁, hq₁⟩ := Option.isSome_iff_exists.1 (step_isSome hb q)
    obtain ⟨q', hq'⟩ := ih q₁ (fun hm => h (List.mem_cons_of_mem _ hm))
    exact ⟨q', by rw [Scan.run_cons_of_step _ _ _ _ hq₁, hq']; rfl⟩

/-- From the start of a line, a line without `\n` leaves the scan at `.\r`
    only when it is `.\r`. -/
theorem run_start_eq_dotCr_iff {l : List UInt8} (h : (10 : UInt8) ∉ l) :
    Scan.run step .start l = .inr .dotCr ↔ l = [46, 13] := by
  match l, h with
  | [], _ => simp
  | b :: l, h =>
    have hb : b ≠ 10 := fun e => h (e ▸ List.mem_cons_self ..)
    have hl : (10 : UInt8) ∉ l := fun hm => h (List.mem_cons_of_mem _ hm)
    by_cases hb₀ : b = 46
    · subst hb₀
      match l, hl with
      | [], _ => simp [Scan.run, step]
      | b₁ :: l, hl =>
        have hb₁ : b₁ ≠ 10 := fun e => hl (e ▸ List.mem_cons_self ..)
        have hl₁ : (10 : UInt8) ∉ l := fun hm => hl (List.mem_cons_of_mem _ hm)
        by_cases hb₁' : b₁ = 13
        · subst hb₁'
          cases l with
          | nil => simp [Scan.run, step]
          | cons b₂ l =>
            -- a third byte, not `\n`, leaves `.\r` for good
            have hb₂ : b₂ ≠ 10 := fun e => hl₁ (e ▸ List.mem_cons_self ..)
            have hl₂ : (10 : UInt8) ∉ l := fun hm => hl₁ (List.mem_cons_of_mem _ hm)
            simp [Scan.run, step, hb₂, run_other_of_not_mem hl₂]
        · simp [Scan.run, step, hb₁, hb₁', run_other_of_not_mem hl₁]
    · simp [Scan.run, step, hb, hb₀, run_other_of_not_mem hl]

/-- A whole line from its start: it ends the data when it is `.\r\n`, and
    otherwise the scan goes on from the start of the next line. -/
theorem run_start_line {l : List UInt8} (h : (10 : UInt8) ∉ l) (r : List UInt8) :
    Scan.run step .start (l ++ 10 :: r) =
      if l = [46, 13] then .inl 3 else Scan.shift (l.length + 1) (Scan.run step .start r) := by
  obtain ⟨q, hq⟩ := run_isRight_of_not_mem .start h
  rw [Scan.run_append, hq]
  by_cases hl : l = [46, 13]
  · have : q = .dotCr := by rw [hl] at hq; simpa [Scan.run, step] using hq.symm
    subst this
    simp [hl, Scan.run, step]
  · have hq' : q ≠ .dotCr := fun e => hl ((run_start_eq_dotCr_iff h).1 (e ▸ hq))
    simp [hl, Scan.run_cons_of_step _ _ _ _ (step_nl q hq'), Scan.shift_shift]

/-- From the other positions, a line that has its `\n` goes on from the
    start of the next. -/
theorem run_other_line {l : List UInt8} (h : (10 : UInt8) ∉ l) (r : List UInt8) :
    Scan.run step .other (l ++ 10 :: r) = Scan.shift (l.length + 1) (Scan.run step .start r) := by
  rw [Scan.run_append, run_other_of_not_mem h]
  simp [Scan.run_cons_of_step _ _ _ _ (step_nl .other (by decide)), Scan.shift_shift]

/-- The byte that carries a position on towards an end line. -/
def expects : LinePos → Option UInt8
  | .start => some 46
  | .dot => some 13
  | .dotCr => some 10
  | .other => none

/-- Any other byte moves a position as it moves `other`. -/
theorem step_eq_step_other {q : LinePos} {b : UInt8} (h : q.expects ≠ some b) :
    q.step b = LinePos.other.step b := by
  cases q <;> simp [expects, step] at h ⊢
  · simp [Ne.symm h]
  · simp [Ne.symm h]
  · simp [Ne.symm h]

/-- A line that departs from the end line at its next byte scans as one
    that begins no end line. -/
theorem run_eq_run_other {q : LinePos} {b : UInt8} (h : q.expects ≠ some b) (t : List UInt8) :
    Scan.run step q (b :: t) = Scan.run step .other (b :: t) := by
  rw [Scan.run_cons, Scan.run_cons, step_eq_step_other h]

/-- A line that departs from the end line further on. -/
theorem run_cons_eq_run_other {q q' : LinePos} {b : UInt8} (hq : q.step b = some q') (hb : b ≠ 10)
    {t : List UInt8} (ht : Scan.run step q' t = Scan.run step .other t) :
    Scan.run step q (b :: t) = Scan.run step .other (b :: t) := by
  rw [Scan.run_cons_of_step _ _ _ _ hq, Scan.run_cons_of_step _ _ _ _ (step_other hb), ht]

end LinePos

/-- The automaton computes `endOfData`. -/
theorem endOfData_eq_run (s : List UInt8) :
    endOfData s = (Scan.run LinePos.step .start s).getLeft? := by
  induction hn : s.length using Nat.strong_induction_on generalizing s with
  | _ n ih =>
  rw [endOfData]
  split
  · next hp =>
    obtain ⟨q, hq⟩ := LinePos.run_isRight_of_not_mem .start (List.idxOf?_eq_none_iff.1 hp)
    simp [hq]
  · next p hp =>
    obtain ⟨hs, hnot⟩ := List.eq_of_idxOf?_eq_some hp
    have hlt : p < s.length := (List.idxOf?_eq_some_iff.1 hp).1
    have hrun : Scan.run LinePos.step .start s =
        if s.take p = [46, 13] then .inl 3
        else Scan.shift (p + 1) (Scan.run LinePos.step .start (s.drop (p + 1))) := by
      conv_lhs => rw [hs]
      rw [LinePos.run_start_line hnot, List.length_take_of_le hlt.le]
    rw [hrun]
    split
    · next htake =>
      -- the end line is the first line, so `p` is 2
      have : p = 2 := by simpa [List.length_take_of_le hlt.le] using congrArg List.length htake
      simp [this]
    · rw [ih _ (by simp; omega) _ rfl]
      cases Scan.run LinePos.step .start (s.drop (p + 1)) <;> simp

namespace EndChecker

/-- The flags `check` keeps at a position of the current line. -/
def ofPos : LinePos → EndChecker
  | .start => default
  | .dot => ⟨false, true, false, false⟩
  | .dotCr => ⟨false, false, true, false⟩
  | .other => ⟨false, false, false, false⟩

/-- The flags `check` leaves once the end is found. -/
def done : EndChecker := ⟨false, false, false, true⟩

/-- What `check` returns, counting from `offset`, for the automaton's scan
    of `s`. -/
def outcome (offset : Nat) (s : List UInt8) : Nat ⊕ LinePos → EndChecker × Nat
  | .inl n => (done, offset + n)
  | .inr q => (ofPos q, offset + s.length)

@[simp] theorem ofPos_found (q : LinePos) : (ofPos q).found = false := by
  cases q <;> rfl

theorem outcome_shift {offset k : Nat} {s : List UInt8} (hk : k ≤ s.length) (x : Nat ⊕ LinePos) :
    outcome offset s (Scan.shift k x) = outcome (offset + k) (s.drop k) x := by
  cases x <;> simp [outcome, Nat.add_assoc]; omega

theorem outcome_add (offset k : Nat) (s : List UInt8) (x : Nat ⊕ LinePos) :
    outcome (offset + k) s x = ((outcome offset s x).1, (outcome offset s x).2 + k) := by
  cases x <;> simp [outcome] <;> omega

/-- A pass that returns from its flag tests returns what the automaton
    reads: the end, or a partial end line filling the rest of the segment. -/
theorem headTest_ofPos_some {q : LinePos} {s : List UInt8} {c : EndChecker} {n : Nat}
    (h : (ofPos q).headTest s = (c, some n)) (offset : Nat) :
    (c, offset + n) = outcome offset s (Scan.run LinePos.step q s) := by
  rcases s with _ | ⟨b₀, _ | ⟨b₁, _ | ⟨b₂, rest⟩⟩⟩
  · simp [headTest] at h
  all_goals cases q <;> simp only [ofPos, default, headTest, if_true, if_false, Bool.false_eq_true,
    Prod.mk.injEq, reduceCtorEq, and_false] at h
  -- what is left is a flag whose test held: the bytes it compared are known
  all_goals split_ifs at h with hb <;>
    simp only [Prod.mk.injEq, reduceCtorEq, and_false, Option.some.injEq, List.cons.injEq, and_true] at h hb
  all_goals obtain ⟨rfl, rfl⟩ := h; simp [hb, outcome, ofPos, done, Scan.run, LinePos.step]

theorem headTest_ofPos_other (s : List UInt8) :
    (ofPos .other).headTest s = (ofPos .other, none) := by
  rcases s with _ | ⟨b₀, _ | ⟨b₁, _ | ⟨b₂, rest⟩⟩⟩ <;> rfl

theorem not_of_ite_eq_none {p : Prop} [Decidable p] {x y c : EndChecker} {k : Nat}
    (h : (if p then (x, some k) else (y, none)) = (c, none)) : ¬p ∧ c = y := by
  split at h
  · cases h
  · cases h; exact ⟨‹_›, rfl⟩

/-- A pass whose flag test fails leaves no flag set, and what it read
    departs from the end line: the scan goes on as from `other`. -/
theorem headTest_ofPos_none {q : LinePos} {s : List UInt8} {c : EndChecker}
    (h : (ofPos q).headTest s = (c, none)) (hs : s ≠ []) :
    c = ofPos .other ∧ Scan.run LinePos.step q s = Scan.run LinePos.step .other s := by
  obtain ⟨b₀, t, rfl⟩ := List.exists_cons_of_ne_nil hs
  cases q with
  | other => rw [headTest_ofPos_other] at h; cases h; exact ⟨rfl, rfl⟩
  | dotCr =>
    -- `check_n`: the first byte is not `\n`
    have hb : ¬b₀ = 10 ∧ c = ofPos .other := by
      rcases t with _ | ⟨b₁, _ | ⟨b₂, rest⟩⟩ <;>
        simp only [ofPos, headTest, if_true, if_false, Bool.false_eq_true] at h <;>
        exact not_of_ite_eq_none h
    exact ⟨hb.2, LinePos.run_eq_run_other (by simp [LinePos.expects, Ne.symm hb.1]) _⟩
  | dot =>
    -- `check_r_n`: the line goes on `\r` and then not `\n`, or not `\r`
    rcases t with _ | ⟨b₁, t⟩
    · obtain ⟨hb, rfl⟩ := not_of_ite_eq_none (by simpa only [ofPos, headTest, if_true, if_false, Bool.false_eq_true] using h)
      exact ⟨rfl, LinePos.run_eq_run_other (by simp [LinePos.expects, Ne.symm hb]) _⟩
    · have hb : ¬(b₀ = 13 ∧ b₁ = 10) ∧ c = ofPos .other := by
        rcases t with _ | ⟨b₂, rest⟩ <;>
          simp only [ofPos, headTest, if_true, if_false, Bool.false_eq_true, List.cons.injEq, and_true] at h <;>
          exact not_of_ite_eq_none h
      refine ⟨hb.2, ?_⟩
      by_cases h₀ : b₀ = 13
      · subst h₀
        refine LinePos.run_cons_eq_run_other LinePos.step_dot_dotCr (by decide) (LinePos.run_eq_run_other ?_ _)
        simpa [LinePos.expects, eq_comm] using hb.1
      · exact LinePos.run_eq_run_other (by simp [LinePos.expects, Ne.symm h₀]) _
  | start =>
    -- `check_empty`: the line departs from `.\r\n` at its first, second or third byte
    rcases t with _ | ⟨b₁, _ | ⟨b₂, rest⟩⟩
    · obtain ⟨hb, rfl⟩ := not_of_ite_eq_none (by simpa only [ofPos, default, headTest, if_true, if_false, Bool.false_eq_true] using h)
      exact ⟨rfl, LinePos.run_eq_run_other (by simp [LinePos.expects, Ne.symm hb]) _⟩
    · obtain ⟨hb, rfl⟩ := not_of_ite_eq_none (by simpa only [ofPos, default, headTest, if_true, if_false, Bool.false_eq_true, List.cons.injEq, and_true] using h)
      refine ⟨rfl, ?_⟩
      by_cases h₀ : b₀ = 46
      · subst h₀
        refine LinePos.run_cons_eq_run_other LinePos.step_start_dot (by decide) (LinePos.run_eq_run_other ?_ _)
        simpa [LinePos.expects, eq_comm] using hb
      · exact LinePos.run_eq_run_other (by simp [LinePos.expects, Ne.symm h₀]) _
    · obtain ⟨hb, rfl⟩ := not_of_ite_eq_none (by simpa only [ofPos, default, headTest, if_true, if_false, Bool.false_eq_true, List.cons.injEq, and_true] using h)
      refine ⟨rfl, ?_⟩
      by_cases h₀ : b₀ = 46
      · subst h₀
        by_cases h₁ : b₁ = 13
        · subst h₁
          refine LinePos.run_cons_eq_run_other LinePos.step_start_dot (by decide) ?_
          refine LinePos.run_cons_eq_run_other LinePos.step_dot_dotCr (by decide) (LinePos.run_eq_run_other ?_ _)
          simpa [LinePos.expects, eq_comm] using hb
        · refine LinePos.run_cons_eq_run_other LinePos.step_start_dot (by decide) (LinePos.run_eq_run_other ?_ _)
          simp [LinePos.expects, Ne.symm h₁]
      · exact LinePos.run_eq_run_other (by simp [LinePos.expects, Ne.symm h₀]) _

/-- From the flags of any position, `check`'s loop scans as the automaton
    does: by induction on what is left, a line a pass. -/
theorem checkFrom_ofPos (q : LinePos) (offset : Nat) (s : List UInt8) :
    (ofPos q).checkFrom offset s = outcome offset s (Scan.run LinePos.step q s) := by
  induction hn : s.length using Nat.strong_induction_on generalizing q offset s with
  | _ n ih =>
  cases s with
  | nil => simp [checkFrom, outcome]
  | cons b rest =>
    rw [checkFrom_cons]
    rcases hh : (ofPos q).headTest (b :: rest) with ⟨c, _ | k⟩
    · -- the flag test failed: the pass skips to the next line, as from `other`
      obtain ⟨rfl, hrun⟩ := headTest_ofPos_none hh (List.cons_ne_nil _ _)
      simp only
      rw [hrun]
      cases hp : (b :: rest).idxOf? 10 with
      | none =>
        simp only
        rw [LinePos.run_other_of_not_mem (List.idxOf?_eq_none_iff.1 hp)]
        rfl
      | some p =>
        simp only
        obtain ⟨hs, hnot⟩ := List.eq_of_idxOf?_eq_some hp
        have hlt : p < (b :: rest).length := (List.idxOf?_eq_some_iff.1 hp).1
        have hrun' : Scan.run LinePos.step .other (b :: rest) =
            Scan.shift (p + 1) (Scan.run LinePos.step .start ((b :: rest).drop (p + 1))) := by
          conv_lhs => rw [hs]
          rw [LinePos.run_other_line hnot, List.length_take_of_le hlt.le]
        rw [hrun', outcome_shift (by omega)]
        exact ih _ (by simp at hlt hn ⊢; omega) .start _ _ rfl
    · exact headTest_ofPos_some hh offset

theorem check_ofPos (q : LinePos) (s : List UInt8) :
    (ofPos q).check s = outcome 0 s (Scan.run LinePos.step q s) :=
  checkFrom_ofPos q 0 s

end EndChecker

namespace TextDataReader

open EndChecker

/-- A run of reads from the flags of a position scans what they read as one
    input: the reader stops at the automaton's stop, whatever the cuts. -/
theorem readAll_ofPos (q : LinePos) (reads : List (List UInt8)) :
    (TextDataReader.mk (ofPos q)).readAll reads =
      (⟨(outcome 0 reads.flatten (Scan.run LinePos.step q reads.flatten)).1⟩,
        (outcome 0 reads.flatten (Scan.run LinePos.step q reads.flatten)).2) := by
  induction reads generalizing q with
  | nil => rfl
  | cons read reads ih =>
    have hnf : (TextDataReader.mk (ofPos q)).finished = false := ofPos_found q
    simp only [readAll, hnf, pollRead, Bool.false_eq_true, if_false, List.flatten_cons]
    split
    · next he =>
      -- an empty read hands nothing on
      rw [List.isEmpty_iff.1 he, List.nil_append, ih]
      simp
    · rw [check_ofPos, Scan.run_append]
      cases hr : Scan.run LinePos.step q read with
      | inl n =>
        -- the end is in this read: no more reads
        simp only [outcome, Sum.elim_inl]
        rw [readAll_of_finished (t := ⟨done⟩) rfl]
        simp
      | inr q' =>
        have h₁ : outcome 0 read (.inr q') = (ofPos q', read.length) := by simp [outcome]
        simp only [Sum.elim_inr, h₁, ih q']
        rw [outcome_shift (by simp), outcome_add]
        simp [Nat.add_comm]

theorem readAll_new (reads : List (List UInt8)) :
    new.readAll reads =
      (⟨(outcome 0 reads.flatten (Scan.run LinePos.step .start reads.flatten)).1⟩,
        (outcome 0 reads.flatten (Scan.run LinePos.step .start reads.flatten)).2) :=
  readAll_ofPos .start reads

theorem finished_readAll_new (reads : List (List UInt8)) :
    (new.readAll reads).1.finished = (Scan.run LinePos.step .start reads.flatten).isLeft := by
  rw [readAll_new]
  cases Scan.run LinePos.step .start reads.flatten <;> simp [outcome, finished, done]

theorem count_readAll_new (reads : List (List UInt8)) :
    (new.readAll reads).2 =
      ((Scan.run LinePos.step .start reads.flatten).getLeft?).getD reads.flatten.length := by
  rw [readAll_new]
  cases Scan.run LinePos.step .start reads.flatten <;> simp [outcome]

/-- However the inner reader cuts the stream into reads, `TextDataReader`
    hands on exactly the bytes up to the end of the first end line (all of
    them when there is none), is finished from the read that holds the end
    line's last byte on, and ends as if the stream had come in one read. -/
theorem textDataReader_stops_at_end_line (reads : List (List UInt8)) :
    (new.readAll reads).2 = (endOfData reads.flatten).getD reads.flatten.length ∧
    (new.readAll reads).1.finished = (endOfData reads.flatten).isSome ∧
    (∀ i, (new.readAll (reads.take i)).1.finished = true ↔
      ∃ n, endOfData reads.flatten = some n ∧ n ≤ (reads.take i).flatten.length) ∧
    new.readAll reads = new.readAll [reads.flatten] := by
  refine ⟨?_, ?_, fun i => ?_, ?_⟩
  · rw [count_readAll_new, endOfData_eq_run]
  · rw [finished_readAll_new, endOfData_eq_run]
    cases Scan.run LinePos.step .start reads.flatten <;> rfl
  · -- the reads so far are a part of the stream: the scan stops in them iff
    -- the scan of the whole stream stops within them
    have hsplit : reads.flatten = (reads.take i).flatten ++ (reads.drop i).flatten := by
      rw [← List.flatten_append, List.take_append_drop]
    rw [finished_readAll_new, Scan.run_isLeft_iff_append _ _ (reads.drop i).flatten, ← hsplit]
    simp [endOfData_eq_run]
  · rw [readAll_new, readAll_new]
    simp

end TextDataReader

/-- `check` given a segment after the end line counts that segment too: fed
    `.\r\n` and then `X`, the counts sum to four, where the end line ends at
    the third byte and `.\r\nX` in one segment counts three. -/
theorem checkAll_counts_past_end :
    endOfData [46, 13, 10, 88] = some 3 ∧
      (EndChecker.default.checkAll [[46, 13, 10], [88]]).2 = 4 ∧
      (EndChecker.default.check [46, 13, 10, 88]).2 = 3 := by
  refine ⟨by rw [endOfData_eq_run]; rfl, ?_, congrArg Prod.snd (EndChecker.check_ofPos .start _)⟩
  have h₁ : EndChecker.default.check [46, 13, 10] = (EndChecker.done, 3) :=
    EndChecker.check_ofPos .start _
  have h₂ : EndChecker.done.check [88] = (EndChecker.done, 1) := by
    simp [EndChecker.check, EndChecker.checkFrom_cons, EndChecker.headTest, EndChecker.done]
  simp [EndChecker.checkAll, h₁, h₂]

end G3Proxy
