/-
  Reassembly of a handshake message from CRYPTO frames (`recv_crypto`):
  whatever the order the frames of a message `M` arrive in, with repeats and
  overlaps, no call panics, the filled prefix of `buf` and every stored
  fragment hold the bytes of `M`, and the coalescer is finished exactly when
  the frames it accepted cover `M`, its buffer then being `M`.

  * `Filling` is what each block of `recv_crypto` keeps: the positions the
    coalescer holds (`held`: the filled prefix and the stored fragments) are
    those the accepted frames carry, `buf` agrees with `M` on all of them,
    the length is known once the header was read, and stored fragments
    start past the prefix while the message is unfinished.  `Inv` adds that
    a prefix of a whole header has had it read, which `discoverHeader`
    restores after each in-order frame.
  * One lemma per block (`filling_writeInOrder`, `filling_extendBuf`,
    `inv_discoverHeader`, `inv_storeFragment`), the step `inv_recvCrypto`,
    and the run `inv_recvAll`.
  * The merge loop over fragments sorted by offset: what it adds to the
    prefix lies in fragments (`exists_of_lt_mergeFragments`), and a fragment
    starting inside the new prefix ends inside it (`end_le_mergeFragments`),
    so the fragments it drops held nothing more (`held_merge`).
-/
import G3Proxy.Dpi.QuicCrypto
import G3Proxy.Core.Lists

namespace G3Proxy

namespace Quic

open Tls List

/-! ## The fragment set -/

namespace Fragment

/-- The stream positions a fragment stands for. -/
def span (f : Fragment) : Set Nat := Set.Ico f.offset (f.offset + f.length)

theorem offset_le_of_cmp_eq_lt {a b : Fragment} (h : a.cmp b = .lt) : a.offset ≤ b.offset := by
  simp only [cmp] at h
  split at h <;> rename_i hc
  · cases h
  · exact Nat.le_of_lt (Nat.compare_eq_lt.1 hc)
  · exact Nat.le_of_eq (Nat.compare_eq_eq.1 hc)

theorem offset_le_of_cmp_eq_gt {a b : Fragment} (h : a.cmp b = .gt) : b.offset ≤ a.offset := by
  simp only [cmp] at h
  split at h <;> rename_i hc
  · exact Nat.le_of_lt (Nat.compare_eq_gt.1 hc)
  · cases h
  · exact Nat.le_of_eq (Nat.compare_eq_eq.1 hc).symm

theorem eq_of_cmp_eq_eq {a b : Fragment} (h : a.cmp b = .eq) : a = b := by
  simp only [cmp] at h
  split at h <;> rename_i hc
  · cases h
  · cases h
  · have ho := Nat.compare_eq_eq.1 hc
    have hl := Nat.compare_eq_eq.1 h
    cases a; cases b
    simp_all

end Fragment

/-- The positions the fragments of a set stand for. -/
def spans (s : List Fragment) : Set Nat := {i | ∃ g ∈ s, i ∈ g.span}

@[simp] theorem mem_insertFragment {f x : Fragment} {s : List Fragment} :
    x ∈ insertFragment f s ↔ x = f ∨ x ∈ s := by
  induction s with
  | nil => simp [insertFragment]
  | cons g s ih =>
    unfold insertFragment
    split <;> rename_i hc
    · simp
    · -- an equal element is already there
      obtain rfl := Fragment.eq_of_cmp_eq_eq hc
      simp
    · simp [ih, or_left_comm]

/-- Fragments in increasing order of offset, as the set iterates them. -/
def Sorted (s : List Fragment) : Prop := s.Pairwise fun a b => a.offset ≤ b.offset

theorem sorted_insertFragment {f : Fragment} {s : List Fragment} (hs : Sorted s) :
    Sorted (insertFragment f s) := by
  induction s with
  | nil => simp [insertFragment, Sorted]
  | cons g s ih =>
    rw [Sorted, List.pairwise_cons] at hs
    unfold insertFragment
    split <;> rename_i hc
    · refine List.pairwise_cons.2 ⟨?_, List.pairwise_cons.2 hs⟩
      intro x hx
      rcases List.mem_cons.1 hx with rfl | hx
      · exact Fragment.offset_le_of_cmp_eq_lt hc
      · exact Nat.le_trans (Fragment.offset_le_of_cmp_eq_lt hc) (hs.1 x hx)
    · exact List.pairwise_cons.2 hs
    · refine List.pairwise_cons.2 ⟨?_, ih hs.2⟩
      intro x hx
      rcases mem_insertFragment.1 hx with rfl | hx
      · exact Fragment.offset_le_of_cmp_eq_gt hc
      · exact hs.1 x hx

theorem spans_insertFragment (f : Fragment) (s : List Fragment) :
    spans (insertFragment f s) = f.span ∪ spans s := by
  ext i
  simp only [spans, Set.mem_ofPred_eq, Set.mem_union, mem_insertFragment]
  constructor
  · rintro ⟨g, rfl | hg, hi⟩
    · exact .inl hi
    · exact .inr ⟨g, hg, hi⟩
  · rintro (hi | ⟨g, hg, hi⟩)
    · exact ⟨f, .inl rfl, hi⟩
    · exact ⟨g, .inr hg, hi⟩

/-! ## The merge loop -/

section Merge

open HandshakeCoalescer

theorem le_mergeFragments (s : List Fragment) (u : Nat) : u ≤ mergeFragments s u := by
  induction s generalizing u with
  | nil => exact Nat.le_refl u
  | cons f fs ih =>
    simp only [mergeFragments]
    split
    · exact Nat.le_refl u
    · exact Nat.le_trans (by split <;> omega) (ih _)

/-- The loop reaches no further than a bound every fragment ends within. -/
theorem mergeFragments_le {B : Nat} (s : List Fragment) (u : Nat) (hu : u ≤ B)
    (hs : ∀ g ∈ s, g.offset + g.length ≤ B) : mergeFragments s u ≤ B := by
  induction s generalizing u with
  | nil => exact hu
  | cons f fs ih =>
    simp only [mergeFragments]
    split
    · exact hu
    · have hf := hs f List.mem_cons_self
      exact ih _ (by split <;> omega) fun g hg => hs g (List.mem_cons_of_mem f hg)

/-- Every position the loop adds to the prefix lies in a fragment. -/
theorem exists_of_lt_mergeFragments (s : List Fragment) (u : Nat) :
    ∀ i, u ≤ i → i < mergeFragments s u → ∃ g ∈ s, i ∈ g.span := by
  induction s generalizing u with
  | nil => intro i hu hi; simp only [mergeFragments] at hi; omega
  | cons f fs ih =>
    intro i hu hi
    simp only [mergeFragments] at hi
    split at hi
    · omega
    · rename_i hf
      by_cases hend : f.offset + f.length > u ∧ i < f.offset + f.length
      · exact ⟨f, List.mem_cons_self, by simp only [Fragment.span, Set.mem_Ico]; omega⟩
      · obtain ⟨g, hg, hgi⟩ := ih _ i (by split <;> omega) hi
        exact ⟨g, List.mem_cons_of_mem f hg, hgi⟩

/-- A fragment that starts inside the prefix the loop reaches ends inside it:
    the loop walks the fragments by offset and stops at the first past the
    prefix. -/
theorem end_le_mergeFragments {s : List Fragment} (hs : Sorted s) (u : Nat) :
    ∀ g ∈ s, g.offset ≤ mergeFragments s u → g.offset + g.length ≤ mergeFragments s u := by
  induction s generalizing u with
  | nil => intro g hg; cases hg
  | cons f fs ih =>
    rw [Sorted, List.pairwise_cons] at hs
    intro g hg hle
    simp only [mergeFragments] at hle ⊢
    by_cases hf : f.offset > u
    · -- the loop stops at once, and every fragment starts past `u`
      rw [if_pos hf] at hle
      rcases List.mem_cons.1 hg with rfl | hg
      · omega
      · have := hs.1 g hg
        omega
    · rw [if_neg hf] at hle ⊢
      rcases List.mem_cons.1 hg with rfl | hg
      · have hu₁ : g.offset + g.length ≤ (if g.offset + g.length > u then g.offset + g.length else u) := by
          split <;> omega
        exact Nat.le_trans hu₁ (le_mergeFragments fs _)
      · exact ih hs.2 _ g hg hle

/-- Growing the prefix to `e` and then over the fragments, and dropping those
    it reached, leaves the held positions as they were with the prefix `e`. -/
theorem held_merge {s : List Fragment} (hs : Sorted s) (e : Nat) :
    Set.Iio (mergeFragments s e) ∪ spans (s.filter fun v => v.offset > mergeFragments s e) =
      Set.Iio e ∪ spans s := by
  ext i
  simp only [spans, Set.mem_union, Set.mem_Iio, Set.mem_ofPred_eq, List.mem_filter,
    decide_eq_true_eq]
  constructor
  · rintro (hi | ⟨g, ⟨hg, -⟩, hgi⟩)
    · by_cases hie : i < e
      · exact .inl hie
      · exact .inr (exists_of_lt_mergeFragments s e i (by omega) hi)
    · exact .inr ⟨g, hg, hgi⟩
  · rintro (hi | ⟨g, hg, hgi⟩)
    · exact .inl (Nat.lt_of_lt_of_le hi (le_mergeFragments s e))
    · by_cases hgu : g.offset > mergeFragments s e
      · exact .inr ⟨g, ⟨hg, hgu⟩, hgi⟩
      · have hend := end_le_mergeFragments hs e g hg (by omega)
        simp only [Fragment.span, Set.mem_Ico] at hgi
        exact .inl (by omega)

end Merge

/-! ## The buffer -/

section Buffer

variable {buf buf' data M : List UInt8} {lo : Nat}

/-- What `writeSlice` leaves: the data over its range, `buf` elsewhere. -/
theorem writeSlice_spec (h : writeSlice buf lo data = some buf') :
    buf'.length = buf.length ∧
      ∀ i, buf'[i]? = if lo ≤ i ∧ i < lo + data.length then data[i - lo]? else buf[i]? := by
  unfold writeSlice at h
  split at h
  · rename_i hle
    cases h
    have htake : (buf.take lo).length = lo := by simp; omega
    refine ⟨by simp; omega, fun i => ?_⟩
    rw [List.append_assoc]
    rcases Nat.lt_or_ge i lo with h₁ | h₁
    · rw [List.getElem?_append_left (by omega), List.getElem?_take_of_lt h₁, if_neg (by omega)]
    · rw [List.getElem?_append_right (by omega), htake]
      rcases Nat.lt_or_ge i (lo + data.length) with h₂ | h₂
      · rw [List.getElem?_append_left (by omega), if_pos ⟨h₁, h₂⟩]
      · rw [List.getElem?_append_right (by omega), List.getElem?_drop, if_neg (by omega)]
        congr 1
        omega
  · cases h

theorem writeSlice_isSome (h : lo + data.length ≤ buf.length) :
    ∃ buf', writeSlice buf lo data = some buf' :=
  ⟨_, if_pos h⟩

@[simp] theorem length_resize (buf : List UInt8) (n : Nat) : (resize buf n).length = n := by
  simp [resize]
  omega

theorem getElem?_resize_of_lt {n i : Nat} (hi : i < n) (hb : i < buf.length) :
    (resize buf n)[i]? = buf[i]? := by
  rw [resize, List.getElem?_append_left (by simp; omega), List.getElem?_take_of_lt hi]

/-- Resizing keeps an agreement with `M` below the new length. -/
theorem agreeOn_resize {hi n : Nat} (h : AgreeOn lo hi buf M) (hn : hi ≤ n) (hM : hi ≤ M.length) :
    AgreeOn lo hi (resize buf n) M := by
  intro i h₁ h₂
  -- where `M` has an element, so has `buf`
  have hb : i < buf.length := by
    by_contra hc
    have hnone : M[i]? = none := by rw [← h i h₁ h₂]; exact List.getElem?_eq_none (by omega)
    have := List.getElem?_eq_none_iff.1 hnone
    omega
  rw [getElem?_resize_of_lt (by omega) hb]
  exact h i h₁ h₂

end Buffer

/-! ## Frames of a message -/

/-- A frame carrying bytes of `M` at their own offsets: a slice `M[o..o + l]`. -/
structure FrameOf (M : List UInt8) (f : CryptoFrame) : Prop where
  le_length : f.streamOffset + f.data.length ≤ M.length
  agree : ∀ j, j < f.data.length → f.data[j]? = M[f.streamOffset + j]?

/-- The stream positions a frame carries. -/
def CryptoFrame.span (f : CryptoFrame) : Set Nat := Set.Ico f.streamOffset (f.streamOffset + f.data.length)

/-- The frame carrying `M[o..o + l]`. -/
def frameOf (M : List UInt8) (p : Nat × Nat) : CryptoFrame := ⟨p.1, (M.drop p.1).take p.2⟩

theorem frameOf_frameOf {M : List UInt8} {p : Nat × Nat} (h : p.1 + p.2 ≤ M.length) :
    FrameOf M (frameOf M p) where
  le_length := by simp [frameOf]; omega
  agree j hj := by
    simp only [frameOf, List.length_take, List.length_drop] at hj ⊢
    rw [List.getElem?_take_of_lt (by omega), List.getElem?_drop]

section Frame

variable {M buf buf' : List UInt8} {f : CryptoFrame}

/-- Writing a frame of `M` keeps every agreement with `M`. -/
theorem agreeOn_writeSlice (hf : FrameOf M f) (hw : writeSlice buf f.streamOffset f.data = some buf')
    {lo hi : Nat} (h : AgreeOn lo hi buf M) : AgreeOn lo hi buf' M := by
  intro i h₁ h₂
  rw [(writeSlice_spec hw).2 i]
  split_ifs with hi'
  · rw [hf.agree (i - f.streamOffset) (by omega)]
    congr 1
    omega
  · exact h i h₁ h₂

/-- After writing a frame of `M`, `buf` agrees with `M` over the frame. -/
theorem agreeOn_writeSlice_self (hf : FrameOf M f) (hw : writeSlice buf f.streamOffset f.data = some buf') :
    AgreeOn f.streamOffset (f.streamOffset + f.data.length) buf' M := by
  intro i h₁ h₂
  rw [(writeSlice_spec hw).2 i, if_pos ⟨h₁, h₂⟩, hf.agree (i - f.streamOffset) (by omega)]
  congr 1
  omega

/-- Cutting `buf` to the frame's offset and appending the frame leaves the
    bytes of `M` up to the frame's end. -/
theorem agreeOn_extend (hf : FrameOf M f) (h : AgreeOn 0 f.streamOffset buf M)
    (ho : f.streamOffset ≤ buf.length) :
    AgreeOn 0 (f.streamOffset + f.data.length) (resize buf f.streamOffset ++ f.data) M := by
  intro i _ h₂
  by_cases hi : i < f.streamOffset
  · rw [List.getElem?_append_left (by simp; omega), getElem?_resize_of_lt hi (by omega)]
    exact h i (Nat.zero_le i) hi
  · rw [List.getElem?_append_right (by simp; omega), length_resize,
      hf.agree (i - f.streamOffset) (by omega)]
    congr 1
    omega

end Frame

/-! ## The header -/

theorem tryParse_eq_none_of_length_lt {l : List UInt8} (h : l.length < HandshakeHeader.size) :
    HandshakeHeader.tryParse l = none := by
  match l, h with
  | [], _ | [_], _ | [_, _], _ | [_, _, _], _ => rfl
  | _ :: _ :: _ :: _ :: _, h =>
    simp only [List.length_cons, HandshakeHeader.size] at h
    omega

/-- The header is read from the first four bytes only. -/
theorem tryParse_take {l : List UInt8} {n : Nat} (hn : HandshakeHeader.size ≤ n) :
    HandshakeHeader.tryParse (l.take n) = HandshakeHeader.tryParse l := by
  obtain ⟨k, rfl⟩ : ∃ k, n = k + 4 := ⟨n - 4, by simp [HandshakeHeader.size] at hn; omega⟩
  match l with
  | [] | [_] | [_, _] | [_, _, _] => simp
  | _ :: _ :: _ :: _ :: _ => simp [HandshakeHeader.tryParse]

/-! ## What each call keeps -/

namespace HandshakeCoalescer

/-- The positions the coalescer holds: the filled prefix and the stored
    fragments. -/
def held (c : HandshakeCoalescer) : Set Nat := Set.Iio c.unfilledOffset ∪ spans c.fragmentSet

theorem finished_eq_true_iff (c : HandshakeCoalescer) :
    c.finished = true ↔ 0 < c.expectedLength ∧ c.expectedLength = c.unfilledOffset := by
  simp [finished]

/-- The in-order write with the merge written for any set: on an empty set
    the loop reaches no further than the frame and drops nothing. -/
theorem writeInOrder_eq (c : HandshakeCoalescer) (frame : CryptoFrame) :
    c.writeInOrder frame = (writeSlice c.buf frame.streamOffset frame.data).map fun buf =>
      if frame.streamOffset + frame.data.length > c.unfilledOffset then
        { c with buf,
                 unfilledOffset := mergeFragments c.fragmentSet (frame.streamOffset + frame.data.length),
                 fragmentSet := c.fragmentSet.filter fun v =>
                   v.offset > mergeFragments c.fragmentSet (frame.streamOffset + frame.data.length) }
      else { c with buf } := by
  unfold writeInOrder
  cases hs : c.fragmentSet <;> simp [mergeFragments]

variable (M : List UInt8) (hdr : HandshakeHeader)

/-- What every block of `recv_crypto` keeps, for the message `M` with the
    header `hdr`, when the accepted frames carry the positions `S`. -/
structure Filling (c : HandshakeCoalescer) (S : Set Nat) : Prop where
  max_ge : hdr.msgLength ≤ c.maxMessageSize
  unfilled_le_buf : c.unfilledOffset ≤ c.buf.length
  unfilled_le : c.unfilledOffset ≤ M.length
  prefix_agree : AgreeOn 0 c.unfilledOffset c.buf M
  /-- before the header: `buf` is the filled prefix, nothing is stored -/
  pending : c.expectedLength = 0 → c.buf.length = c.unfilledOffset ∧ c.fragmentSet = [] ∧ c.header = none
  /-- after the header: `buf` is sized to the message -/
  known : 0 < c.expectedLength → c.expectedLength = M.length ∧ c.buf.length = M.length ∧ c.header = some hdr
  inside : ∀ g ∈ c.fragmentSet, g.offset + g.length ≤ M.length ∧ AgreeOn g.offset (g.offset + g.length) c.buf M
  sorted : Sorted c.fragmentSet
  past : c.finished = false → ∀ g ∈ c.fragmentSet, c.unfilledOffset < g.offset
  held : c.held = S

/-- `Filling`, with the header read as soon as the prefix holds it. -/
structure Inv (c : HandshakeCoalescer) (S : Set Nat) : Prop extends Filling M hdr c S where
  short : c.expectedLength = 0 → c.unfilledOffset < HandshakeHeader.size

variable {M hdr} {c : HandshakeCoalescer} {S : Set Nat} {f : CryptoFrame}

theorem inv_new {maxMessageSize : Nat} (hmax : hdr.msgLength ≤ maxMessageSize) :
    Inv M hdr (new maxMessageSize) ∅ where
  max_ge := hmax
  unfilled_le_buf := Nat.le_refl 0
  unfilled_le := Nat.zero_le _
  prefix_agree := fun _ _ h => absurd h (Nat.not_lt_zero _)
  pending := fun _ => ⟨rfl, rfl, rfl⟩
  known := fun h => absurd h (Nat.lt_irrefl 0)
  inside := fun _ h => absurd h List.not_mem_nil
  sorted := List.Pairwise.nil
  past := fun _ _ h => absurd h List.not_mem_nil
  held := by simp [held, new, spans]
  short := fun _ => by simp [new, HandshakeHeader.size]

/-- A frame starting inside the prefix, past which the prefix cannot reach
    without the length known. -/
theorem expectedLength_pos_of_lt (hc : Filling M hdr c S) (hlt : c.unfilledOffset < c.buf.length) :
    0 < c.expectedLength := by
  by_contra h0
  have := (hc.pending (by omega)).1
  omega

/-- The frame of positions `[o, e)` with `o ≤ u ≤ e` turns the prefix
    `[0, u)` into `[0, e)`. -/
theorem Iio_union_Ico {o u e : Nat} (ho : o ≤ u) (hu : u ≤ e) : Set.Iio u ∪ Set.Ico o e = Set.Iio e := by
  ext i
  simp only [Set.mem_union, Set.mem_Iio, Set.mem_Ico]
  omega

/-- "write part of the buf". -/
theorem filling_writeInOrder (hc : Inv M hdr c S) (hf : FrameOf M f) (hin : f.streamOffset ≤ c.unfilledOffset)
    (hlt : f.streamOffset + f.data.length < c.buf.length) :
    ∃ c', c.writeInOrder f = some c' ∧ Filling M hdr c' (S ∪ f.span) := by
  obtain ⟨buf', hw⟩ : ∃ buf', writeSlice c.buf f.streamOffset f.data = some buf' := writeSlice_isSome (by omega)
  have hlen' := (writeSlice_spec hw).1
  have hkeep : ∀ {lo hi}, AgreeOn lo hi c.buf M → AgreeOn lo hi buf' M := agreeOn_writeSlice hf hw
  rw [writeInOrder_eq, hw, Option.map_some]
  refine ⟨_, rfl, ?_⟩
  split_ifs with hgrow
  · -- new data: the prefix grows over the fragments; the length is known,
    -- since before it `buf` is no longer than the prefix
    have hexp := expectedLength_pos_of_lt hc.toFilling (by omega)
    obtain ⟨hexpM, hbufM, hhdr⟩ := hc.known hexp
    have hu : mergeFragments c.fragmentSet (f.streamOffset + f.data.length) ≤ M.length :=
      mergeFragments_le _ _ hf.le_length fun g hg => (hc.inside g hg).1
    refine
      { max_ge := hc.max_ge
        unfilled_le_buf := by simp only; omega
        unfilled_le := hu
        prefix_agree := ?_
        pending := fun h => absurd h (by simp only; omega)
        known := fun _ => ⟨hexpM, by simp only; omega, hhdr⟩
        inside := fun g hg => ?_
        sorted := hc.sorted.filter _
        past := fun _ g hg => by simpa using (List.mem_filter.1 hg).2
        held := ?_ }
    · -- up to the frame's end from the old prefix and the frame, beyond it
      -- from the fragments the loop went over
      intro i _ hi
      by_cases hie : i < f.streamOffset + f.data.length
      · exact ((hkeep hc.prefix_agree).join (agreeOn_writeSlice_self hf hw) hin) i (Nat.zero_le i) hie
      · obtain ⟨g, hg, hgi⟩ := exists_of_lt_mergeFragments c.fragmentSet _ i (by omega) hi
        exact hkeep (hc.inside g hg).2 i hgi.1 hgi.2
    · have hg' := (List.mem_filter.1 hg).1
      exact ⟨(hc.inside g hg').1, hkeep (hc.inside g hg').2⟩
    · show Set.Iio _ ∪ spans _ = S ∪ f.span
      rw [held_merge hc.sorted, ← hc.held, held, CryptoFrame.span, Set.union_right_comm,
        Iio_union_Ico hin (by omega)]
  · -- nothing past the prefix: the frame's positions were held already
    have hsub : f.span ⊆ c.held := fun i hi => .inl (by simp only [CryptoFrame.span, Set.mem_Ico] at hi; simp only [Set.mem_Iio]; omega)
    exact
      { max_ge := hc.max_ge
        unfilled_le_buf := by simp only; have := hc.unfilled_le_buf; omega
        unfilled_le := hc.unfilled_le
        prefix_agree := hkeep hc.prefix_agree
        pending := fun h => by obtain ⟨h₁, h₂, h₃⟩ := hc.pending h; exact ⟨by simp only; omega, h₂, h₃⟩
        known := fun h => by obtain ⟨h₁, h₂, h₃⟩ := hc.known h; exact ⟨h₁, by simp only; omega, h₃⟩
        inside := fun g hg => ⟨(hc.inside g hg).1, hkeep (hc.inside g hg).2⟩
        sorted := hc.sorted
        past := hc.past
        held := by rw [← hc.held]; exact (Set.union_eq_self_of_subset_right hsub).symm }

/-! ### The blocks of `recv_crypto` -/

@[simp] theorem extendBuf_buf : (c.extendBuf f).buf = resize c.buf f.streamOffset ++ f.data := rfl

@[simp] theorem extendBuf_unfilledOffset :
    (c.extendBuf f).unfilledOffset = f.streamOffset + f.data.length := by
  simp [extendBuf]

@[simp] theorem extendBuf_expectedLength : (c.extendBuf f).expectedLength = c.expectedLength := rfl

@[simp] theorem extendBuf_fragmentSet : (c.extendBuf f).fragmentSet = c.fragmentSet := rfl

@[simp] theorem extendBuf_header : (c.extendBuf f).header = c.header := rfl

@[simp] theorem extendBuf_maxMessageSize : (c.extendBuf f).maxMessageSize = c.maxMessageSize := rfl

/-- "extend the buf with some new data": `buf` now ends with the frame, all
    of it filled.  Past the header the frame must reach the message's end. -/
theorem filling_extendBuf (hc : Inv M hdr c S) (hf : FrameOf M f) (hin : f.streamOffset ≤ c.unfilledOffset)
    (hge : c.buf.length ≤ f.streamOffset + f.data.length) :
    Filling M hdr (c.extendBuf f) (S ∪ f.span) := by
  have hbuf := hc.unfilled_le_buf
  have hM := hf.le_length
  have hext : AgreeOn 0 (f.streamOffset + f.data.length) (c.extendBuf f).buf M :=
    agreeOn_extend hf (hc.prefix_agree.mono (Nat.le_refl 0) hin) (by omega)
  have hheld : (c.extendBuf f).held = S ∪ f.span := by
    rw [← hc.held, held, held, CryptoFrame.span, Set.union_right_comm, Iio_union_Ico hin (by omega),
      extendBuf_unfilledOffset, extendBuf_fragmentSet]
  rcases Nat.eq_zero_or_pos c.expectedLength with h0 | hexp
  · -- before the header: nothing is stored
    obtain ⟨-, hset, hnone⟩ := hc.pending h0
    exact
      { max_ge := hc.max_ge
        unfilled_le_buf := by simp
        unfilled_le := by simpa using hM
        prefix_agree := by simpa using hext
        pending := fun _ => ⟨by simp, hset, hnone⟩
        known := fun h => absurd h (by simp [h0])
        inside := by simp [hset]
        sorted := by simp [hset, Sorted]
        past := by simp [hset]
        held := hheld }
  · -- past the header `buf` has the message's length, so the frame ends it
    obtain ⟨hexpM, hbufM, hhdr⟩ := hc.known hexp
    have hfin : (c.extendBuf f).finished = true := by
      rw [finished_eq_true_iff]
      simp only [extendBuf_expectedLength, extendBuf_unfilledOffset]
      omega
    exact
      { max_ge := hc.max_ge
        unfilled_le_buf := by simp
        unfilled_le := by simpa using hM
        prefix_agree := by simpa using hext
        pending := fun h => absurd h (by simp only [extendBuf_expectedLength]; omega)
        known := fun _ => ⟨hexpM, by simp; omega, hhdr⟩
        inside := fun g hg => ⟨(hc.inside g hg).1, hext.mono (Nat.zero_le _) (by have := (hc.inside g hg).1; omega)⟩
        sorted := hc.sorted
        past := fun h => absurd hfin (by rw [h]; decide)
        held := hheld }

/-- The header is read once the prefix holds it; for `M` it is `hdr`, within
    the size limit, and `buf` is sized to the message. -/
theorem inv_discoverHeader (hhdr : HandshakeHeader.tryParse M = some hdr)
    (hlen : M.length = hdr.msgLength + HandshakeHeader.size) (hc : Filling M hdr c S) :
    ∃ c', c.discoverHeader = some (.ok (), c') ∧ Inv M hdr c' S := by
  unfold discoverHeader
  split_ifs with h0
  · rw [sliceTo, if_pos hc.unfilled_le_buf, Option.map_some]
    by_cases hshort : c.unfilledOffset < HandshakeHeader.size
    · -- not yet a whole header
      rw [tryParse_eq_none_of_length_lt (by simp; omega)]
      exact ⟨c, rfl, { hc with short := fun _ => hshort }⟩
    · have hparse : HandshakeHeader.tryParse (c.buf.take c.unfilledOffset) = some hdr := by
        rw [hc.prefix_agree.take_eq, tryParse_take (by omega), hhdr]
      obtain ⟨-, hset, -⟩ := hc.pending h0
      have hu := hc.unfilled_le
      rw [hparse]
      simp only [if_neg (Nat.not_lt.2 hc.max_ge)]
      refine ⟨_, rfl, ?_⟩
      exact
        { max_ge := hc.max_ge
          unfilled_le_buf := by dsimp only; rw [length_resize]; omega
          unfilled_le := hu
          prefix_agree := agreeOn_resize hc.prefix_agree
            (show c.unfilledOffset ≤ hdr.msgLength + HandshakeHeader.size by omega) hu
          pending := fun h => absurd h (by dsimp only [HandshakeHeader.size]; omega)
          known := fun _ => ⟨hlen.symm, by dsimp only; rw [length_resize]; omega, rfl⟩
          inside := by simp only [hset]; simp
          sorted := hc.sorted
          past := by simp only [hset]; simp
          held := hc.held
          short := fun h => absurd h (by dsimp only [HandshakeHeader.size]; omega) }
  · exact ⟨c, rfl, { hc with short := fun h => absurd h h0 }⟩

/-- A frame past the prefix, once the length is known, is written and stored. -/
theorem inv_storeFragment (hc : Inv M hdr c S) (hf : FrameOf M f) (hout : c.unfilledOffset < f.streamOffset)
    (hexp : 0 < c.expectedLength) :
    ∃ c', c.storeFragment f = some c' ∧ Inv M hdr c' (S ∪ f.span) := by
  obtain ⟨hexpM, hbufM, hhdr⟩ := hc.known hexp
  have hM := hf.le_length
  obtain ⟨buf', hw⟩ : ∃ buf', writeSlice c.buf f.streamOffset f.data = some buf' := writeSlice_isSome (by omega)
  have hlen' := (writeSlice_spec hw).1
  have hkeep : ∀ {lo hi}, AgreeOn lo hi c.buf M → AgreeOn lo hi buf' M := agreeOn_writeSlice hf hw
  have hspan : Fragment.span ⟨f.streamOffset, f.data.length⟩ = f.span := rfl
  rw [storeFragment, hw, Option.map_some]
  refine ⟨_, rfl, ?_⟩
  exact
    { max_ge := hc.max_ge
      unfilled_le_buf := by simp only; have := hc.unfilled_le_buf; omega
      unfilled_le := hc.unfilled_le
      prefix_agree := hkeep hc.prefix_agree
      pending := fun h => absurd h (by simp only; omega)
      known := fun _ => ⟨hexpM, by simp only; omega, hhdr⟩
      inside := fun g hg => by
        rcases mem_insertFragment.1 hg with rfl | hg
        · exact ⟨hM, agreeOn_writeSlice_self hf hw⟩
        · exact ⟨(hc.inside g hg).1, hkeep (hc.inside g hg).2⟩
      sorted := sorted_insertFragment hc.sorted
      past := fun hfin g hg => by
        rcases mem_insertFragment.1 hg with rfl | hg
        · exact hout
        · exact hc.past hfin g hg
      held := by
        show Set.Iio c.unfilledOffset ∪ spans (insertFragment _ c.fragmentSet) = S ∪ f.span
        rw [spans_insertFragment, hspan, ← hc.held, held, Set.union_left_comm, Set.union_comm]
      short := fun h => absurd h (by simp only; omega) }

/-! ### Calls and runs -/

/-- One call on a frame of `M` returns, and keeps `Inv` with the frame's
    positions added when it accepts the frame. -/
theorem inv_recvCrypto (hhdr : HandshakeHeader.tryParse M = some hdr)
    (hlen : M.length = hdr.msgLength + HandshakeHeader.size) (hc : Inv M hdr c S) (hf : FrameOf M f) :
    ∃ r c', c.recvCrypto f = some (r, c') ∧ Inv M hdr c' (if r.isOk then S ∪ f.span else S) := by
  have hM := hf.le_length
  unfold recvCrypto
  by_cases hin : f.streamOffset ≤ c.unfilledOffset
  · -- a frame of `M` is never longer than the message
    have hnot : ¬ (c.expectedLength > 0 ∧ f.streamOffset + f.data.length > c.expectedLength) := by
      rintro ⟨hexp, hgt⟩
      have := (hc.known hexp).1
      omega
    have hfill : ∃ c₁, (if c.buf.length > f.streamOffset + f.data.length then c.writeInOrder f
        else some (c.extendBuf f)) = some c₁ ∧ Filling M hdr c₁ (S ∪ f.span) := by
      split_ifs with hlt
      · exact filling_writeInOrder hc hf hin hlt
      · exact ⟨_, rfl, filling_extendBuf hc hf hin (by omega)⟩
    obtain ⟨c₁, hc₁, hfill₁⟩ := hfill
    obtain ⟨c', hc', hinv⟩ := inv_discoverHeader hhdr hlen hfill₁
    refine ⟨.ok (), c', ?_, hinv⟩
    simp only [if_pos hin, if_neg hnot]
    rw [hc₁, Option.bind_some, hc']
  · by_cases h0 : c.expectedLength = 0
    · -- rejected before the header: nothing changes
      simp only [if_neg hin, if_pos h0]
      exact ⟨_, _, rfl, hc⟩
    · have hexpM := (hc.known (by omega)).1
      obtain ⟨c', hc', hinv⟩ := inv_storeFragment hc hf (by omega) (by omega)
      refine ⟨.ok (), c', ?_, hinv⟩
      simp only [if_neg hin, if_neg h0, if_neg (show ¬ f.streamOffset > c.expectedLength by omega),
        if_neg (show ¬ f.streamOffset + f.data.length > c.expectedLength by omega)]
      rw [hc', Option.map_some]

/-- The positions the frames carry. -/
def covered (A : List CryptoFrame) : Set Nat := {i | ∃ f ∈ A, i ∈ f.span}

theorem covered_cons (f : CryptoFrame) (A : List CryptoFrame) : covered (f :: A) = f.span ∪ covered A := by
  ext i
  simp only [covered, Set.mem_ofPred_eq, Set.mem_union, List.mem_cons]
  constructor
  · rintro ⟨g, rfl | hg, hi⟩
    · exact .inl hi
    · exact .inr ⟨g, hg, hi⟩
  · rintro (hi | ⟨g, hg, hi⟩)
    · exact ⟨f, .inl rfl, hi⟩
    · exact ⟨g, .inr hg, hi⟩

/-- A run over frames of `M`: every call returns, and `Inv` holds at the end
    with the positions of the frames accepted. -/
theorem inv_recvAll (hhdr : HandshakeHeader.tryParse M = some hdr)
    (hlen : M.length = hdr.msgLength + HandshakeHeader.size) :
    ∀ (fs : List CryptoFrame) (c : HandshakeCoalescer) (S : Set Nat), Inv M hdr c S →
      (∀ f ∈ fs, FrameOf M f) → ∃ c' accepted, c.recvAll fs = some (c', accepted) ∧
        Inv M hdr c' (S ∪ covered accepted) := by
  intro fs
  induction fs with
  | nil =>
    intro c S hc _
    refine ⟨c, [], rfl, ?_⟩
    have hempty : covered [] = ∅ := by simp [covered]
    rwa [hempty, Set.union_empty]
  | cons f fs ih =>
    intro c S hc hfs
    obtain ⟨r, c₁, h₁, hinv₁⟩ := inv_recvCrypto hhdr hlen hc (hfs f List.mem_cons_self)
    obtain ⟨c', acc, h₂, hinv₂⟩ := ih c₁ _ hinv₁ fun g hg => hfs g (List.mem_cons_of_mem f hg)
    refine ⟨c', if r.isOk then f :: acc else acc, by simp [recvAll, h₁, h₂], ?_⟩
    cases hr : r.isOk
    · simpa [hr] using hinv₂
    · simp only [hr, if_true] at hinv₂ ⊢
      rwa [covered_cons, ← Set.union_assoc]

/-! ### What the invariant gives -/

/-- Finished exactly when every position of `M` is held: before the header
    the prefix is shorter than `M`, and past it while unfinished the position
    at the prefix's end is neither filled nor stored. -/
theorem Inv.finished_iff (hc : Inv M hdr c S) (hlen : M.length = hdr.msgLength + HandshakeHeader.size) :
    c.finished = true ↔ ∀ i < M.length, i ∈ S := by
  rw [← hc.held, finished_eq_true_iff]
  constructor
  · rintro ⟨hexp, hu⟩ i hi
    have := (hc.known hexp).1
    exact .inl (show i < c.unfilledOffset by omega)
  · intro hall
    by_contra hfin
    have hu := hc.unfilled_le
    rcases Nat.eq_zero_or_pos c.expectedLength with h0 | hexp
    · -- the prefix holds less than a header
      have hshort := hc.short h0
      have hset := (hc.pending h0).2.1
      rcases hall c.unfilledOffset (by simp [HandshakeHeader.size] at hshort hlen ⊢; omega) with h | ⟨g, hg, -⟩
      · exact Nat.lt_irrefl _ h
      · rw [hset] at hg
        cases hg
    · have hexpM := (hc.known hexp).1
      have hnot : c.finished = false := by
        rw [Bool.eq_false_iff, ne_eq, finished_eq_true_iff]
        exact hfin
      rcases hall c.unfilledOffset (by omega) with h | ⟨g, hg, hgi⟩
      · exact Nat.lt_irrefl _ h
      · have := hc.past hnot g hg
        simp only [Fragment.span, Set.mem_Ico] at hgi
        omega

/-- A finished coalescer holds `M` in `buf`. -/
theorem Inv.buf_eq (hc : Inv M hdr c S) (hfin : c.finished = true) : c.buf = M := by
  obtain ⟨hexp, hu⟩ := (finished_eq_true_iff c).1 hfin
  obtain ⟨hexpM, hbufM, -⟩ := hc.known hexp
  apply List.AgreeOn.eq _ (hbufM)
  rw [hbufM, ← hexpM, hu]
  exact hc.prefix_agree

/-- A finished coalescer parses `M`: its header's type, then its body. -/
theorem Inv.parseClientHello_eq {α : Type} (hc : Inv M hdr c S) (hfin : c.finished = true)
    (parseMsgData : List UInt8 → Except ClientHelloParseError α) :
    c.parseClientHello parseMsgData =
      if hdr.msgType = clientHelloType then (parseMsgData (M.drop HandshakeHeader.size)).map some
      else .error (.invalidMessageType hdr.msgType) := by
  obtain ⟨hexp, -⟩ := (finished_eq_true_iff c).1 hfin
  have hheader := (hc.known hexp).2.2
  simp only [parseClientHello, hheader, hc.buf_eq hfin, hfin]
  by_cases ht : hdr.msgType = clientHelloType <;> simp [ht]

/-- Frames of a handshake message `M` within the size limit, delivered in
    any order, with repeats and overlaps: no call panics; at the end, and so
    after every call (the calls up to it being a run of their own), the
    filled prefix of `buf` and every stored fragment hold bytes of `M`; and
    the coalescer is finished exactly when the accepted frames cover `M`, and
    then holds `M` and parses it. -/
theorem recvAll_reassembles (maxMessageSize : Nat) (M : List UInt8) (hdr : HandshakeHeader)
    (hhdr : HandshakeHeader.tryParse M = some hdr) (hlen : M.length = hdr.msgLength + HandshakeHeader.size)
    (hmax : hdr.msgLength ≤ maxMessageSize) (frames : List (Nat × Nat))
    (hframes : ∀ p ∈ frames, p.1 + p.2 ≤ M.length) :
    ∃ c accepted, (new maxMessageSize).recvAll (frames.map (frameOf M)) = some (c, accepted) ∧
      c.unfilledOffset ≤ c.buf.length ∧ c.buf.take c.unfilledOffset = M.take c.unfilledOffset ∧
      (∀ g ∈ c.fragmentSet, g.offset + g.length ≤ M.length ∧
        (c.buf.drop g.offset).take g.length = (M.drop g.offset).take g.length) ∧
      (c.finished = true ↔
        ∀ i < M.length, ∃ f ∈ accepted, f.streamOffset ≤ i ∧ i < f.streamOffset + f.data.length) ∧
      (c.finished = true → c.buf = M ∧
        ∀ {α : Type} (parseMsgData : List UInt8 → Except ClientHelloParseError α),
          c.parseClientHello parseMsgData =
            if hdr.msgType = clientHelloType then (parseMsgData (M.drop HandshakeHeader.size)).map some
            else .error (.invalidMessageType hdr.msgType)) := by
  have hfs : ∀ f ∈ frames.map (frameOf M), FrameOf M f := by
    intro f hf
    obtain ⟨p, hp, rfl⟩ := List.mem_map.1 hf
    exact frameOf_frameOf (hframes p hp)
  obtain ⟨c, accepted, hrun, hc⟩ := inv_recvAll hhdr hlen _ _ _ (inv_new hmax) hfs
  rw [Set.empty_union] at hc
  exact ⟨c, accepted, hrun, hc.unfilled_le_buf, hc.prefix_agree.take_eq,
    fun g hg => ⟨(hc.inside g hg).1, (hc.inside g hg).2.drop_take_eq⟩, hc.finished_iff hlen,
    fun hfin => ⟨hc.buf_eq hfin, fun parseMsgData => hc.parseClientHello_eq hfin parseMsgData⟩⟩

/-- A ClientHello of one body byte. -/
def oneByteHello : List UInt8 := [1, 0, 0, 1, 0x42]

/-- Its frames out of order: the tail first (refused, the header not being
    known), then the first two bytes, then an overlapping frame to the end. -/
theorem recvAll_reassembles_oneByteHello :
    HandshakeHeader.tryParse oneByteHello = some ⟨1, 1⟩ ∧
      oneByteHello.length = (⟨1, 1⟩ : HandshakeHeader).msgLength + HandshakeHeader.size ∧
      (⟨1, 1⟩ : HandshakeHeader).msgLength ≤ 16 ∧
      (∀ p ∈ [(2, 3), (0, 2), (1, 4)], p.1 + p.2 ≤ oneByteHello.length) ∧
      ∃ c accepted, (new 16).recvAll ([(2, 3), (0, 2), (1, 4)].map (frameOf oneByteHello)) =
          some (c, accepted) ∧
        c.unfilledOffset ≤ c.buf.length ∧ c.buf.take c.unfilledOffset = oneByteHello.take c.unfilledOffset ∧
        (∀ g ∈ c.fragmentSet, g.offset + g.length ≤ oneByteHello.length ∧
          (c.buf.drop g.offset).take g.length = (oneByteHello.drop g.offset).take g.length) ∧
        (c.finished = true ↔ ∀ i < oneByteHello.length,
          ∃ f ∈ accepted, f.streamOffset ≤ i ∧ i < f.streamOffset + f.data.length) ∧
        (c.finished = true → c.buf = oneByteHello ∧
          ∀ {α : Type} (parseMsgData : List UInt8 → Except ClientHelloParseError α),
            c.parseClientHello parseMsgData =
              if (⟨1, 1⟩ : HandshakeHeader).msgType = clientHelloType then
                (parseMsgData (oneByteHello.drop HandshakeHeader.size)).map some
              else .error (.invalidMessageType (⟨1, 1⟩ : HandshakeHeader).msgType)) :=
  ⟨rfl, rfl, by decide, by decide,
    recvAll_reassembles 16 oneByteHello ⟨1, 1⟩ rfl rfl (by decide) _ (by decide)⟩

end HandshakeCoalescer

end Quic

end G3Proxy
