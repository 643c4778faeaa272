import Mathlib.Data.List.Basic
import Mathlib.Tactic.Common

/-!
# Circular buffers without a full test

A buffer of `n` places has a place to read at and a place to write at, which go round.  It is empty
when the two are the same.  Nobody looks whether it is full: when the writer has caught up with the
reader the buffer is empty again.

`r.Follows n xs k` says that the elements `xs` were put into the buffer, and that the `k`-th one is
the next to be read.  Then what is pending is the end of `xs` from `k` on, also after the writer has
passed the reader, which just makes `k` larger.
-/

/-- A circular buffer. -/
structure RingBuffer (α : Type) where
  buf : Nat → α
  rpos : Nat
  wpos : Nat

namespace RingBuffer

variable {α : Type} {n k : Nat} {r : RingBuffer α} {xs : List α} {x : α}

/-- The place after `i`. -/
def next (n i : Nat) : Nat :=
  if i + 1 = n then 0 else i + 1

/-- Write an element. -/
def put (n : Nat) (r : RingBuffer α) (x : α) : RingBuffer α :=
  { r with buf := Function.update r.buf r.wpos x, wpos := next n r.wpos }

theorem put_buf :
  (r.put n x).buf = Function.update r.buf r.wpos x
  := rfl

/-- Read an element, if the buffer is not empty. -/
def get (n : Nat) (r : RingBuffer α) : Option α × RingBuffer α :=
  if r.rpos = r.wpos then (none, r)
  else (some (r.buf r.rpos), { r with rpos := next n r.rpos })

/-- The elements from the place to read at up to the place to write at. -/
def pending (n : Nat) (r : RingBuffer α) : List α :=
  (List.range ((r.wpos + n - r.rpos) % n)).map (fun i => r.buf ((r.rpos + i) % n))

/-- The elements `xs` were put into the buffer, and the `k`-th one is the next to be read. -/
structure Follows (n : Nat) (r : RingBuffer α) (xs : List α) (k : Nat) : Prop where
  rpos : r.rpos = k % n
  wpos : r.wpos = xs.length % n
  le : k ≤ xs.length
  lt : xs.length < k + n
  kept : ∀ i y, xs[i]? = some y → xs.length ≤ i + n → r.buf (i % n) = y

theorem next_mod (hn : 0 < n) (i : Nat) :
  next n (i % n) = (i + 1) % n
  := by
  have hlt := Nat.mod_lt i hn
  have hsum : (i + 1) % n = (i % n + 1) % n := (Nat.mod_add_mod i n 1).symm
  rw [next, hsum]
  split
  case isTrue h => rw [h, Nat.mod_self]
  case isFalse h => rw [Nat.mod_eq_of_lt (show i % n + 1 < n by omega)]

/-- How far the place `(k + d) % n` is from the place `k % n`. -/
theorem distance_mod {d : Nat} (hd : d < n) :
  ((k + d) % n + n - k % n) % n = d
  := by
  have hk : k % n < n := Nat.mod_lt k (by omega)
  rw [← Nat.mod_add_mod]
  by_cases hlt : k % n + d < n
  · rw [Nat.mod_eq_of_lt hlt, show k % n + d + n - k % n = d + n by omega, Nat.add_mod_right,
      Nat.mod_eq_of_lt hd]
  · have hround : (k % n + d) % n = k % n + d - n := by
      rw [Nat.mod_eq_sub_mod (by omega), Nat.mod_eq_of_lt (by omega)]
    rw [hround, show k % n + d - n + n - k % n = d by omega, Nat.mod_eq_of_lt hd]

namespace Follows

theorem pos (h : r.Follows n xs k) :
  0 < n
  := by
  have hle := h.le
  have hlt := h.lt
  omega

theorem start (hn : 0 < n) (hr : r.rpos = 0) (hw : r.wpos = 0) :
  r.Follows n [] 0
  := by
  constructor
  case rpos => rw [hr, Nat.zero_mod]
  case wpos => rw [hw, List.length_nil, Nat.zero_mod]
  case le => apply Nat.le_refl
  case lt => simpa using hn
  case kept =>
    intro i y hy
    cases hy

theorem rpos_lt (h : r.Follows n xs k) :
  r.rpos < n
  := by
  rw [h.rpos]
  apply Nat.mod_lt _ h.pos

theorem wpos_lt (h : r.Follows n xs k) :
  r.wpos < n
  := by
  rw [h.wpos]
  apply Nat.mod_lt _ h.pos

/-- The buffer is empty when everything put into it was read or passed. -/
theorem empty_iff (h : r.Follows n xs k) :
  r.rpos = r.wpos ↔ k = xs.length
  := by
  have hle := h.le
  have hlt := h.lt
  rw [h.rpos, h.wpos]
  constructor
  · intro heq
    have hd := distance_mod (n := n) (k := k) (d := xs.length - k) (by omega)
    rw [Nat.add_sub_cancel' hle, ← heq, Nat.add_sub_cancel_left, Nat.mod_self] at hd
    omega
  · rintro rfl
    rfl

/-- What is pending is the end of what was put in. -/
theorem pending_eq (h : r.Follows n xs k) :
  r.pending n = xs.drop k
  := by
  have hle := h.le
  have hlt := h.lt
  have hcount : (r.wpos + n - r.rpos) % n = xs.length - k := by
    have hd := distance_mod (n := n) (k := k) (d := xs.length - k) (by omega)
    rw [Nat.add_sub_cancel' hle] at hd
    rw [h.rpos, h.wpos, hd]
  apply List.ext_getElem
  · rw [pending, List.length_map, List.length_range, List.length_drop, hcount]
  · intro i hi hi'
    rw [List.length_drop] at hi'
    simp only [pending, List.getElem_map, List.getElem_range, List.getElem_drop]
    rw [h.rpos, Nat.mod_add_mod]
    apply h.kept
    · apply List.getElem?_eq_getElem
    · omega

/-- What is put in comes last. When the buffer was full, nothing is pending then. -/
theorem put (h : r.Follows n xs k) (x : α) :
  (r.put n x).Follows n (xs ++ [x]) (if xs.length + 1 < k + n then k else xs.length + 1)
  := by
  have hle := h.le
  have hlt := h.lt
  constructor
  case rpos =>
    split
    case isTrue => apply h.rpos
    case isFalse hfull =>
      rw [show xs.length + 1 = k + n by omega, Nat.add_mod_right]
      apply h.rpos
  case wpos =>
    rw [List.length_append, List.length_singleton, ← next_mod h.pos, ← h.wpos]
    rfl
  case le =>
    rw [List.length_append, List.length_singleton]
    split <;> omega
  case lt =>
    have hn := h.pos
    rw [List.length_append, List.length_singleton]
    split <;> omega
  case kept =>
    intro i y hy hi
    rw [List.length_append, List.length_singleton] at hi
    by_cases hlast : i = xs.length
    · subst hlast
      rw [List.getElem?_append_right (Nat.le_refl _), Nat.sub_self] at hy
      cases hy
      rw [put_buf, h.wpos, Function.update_self]
    · have hlen := (List.getElem?_eq_some_iff.mp hy).1
      rw [List.length_append, List.length_singleton] at hlen
      have hne : i % n ≠ r.wpos := by
        -- the two places are less than `n` apart
        rw [h.wpos]
        intro heq
        have hd := distance_mod (n := n) (k := i) (d := xs.length - i) (by omega)
        rw [Nat.add_sub_cancel' (by omega), ← heq, Nat.add_sub_cancel_left, Nat.mod_self] at hd
        omega
      rw [put_buf, Function.update_of_ne hne]
      apply h.kept i y _ (by omega)
      rw [← hy, List.getElem?_append_left (by omega)]

theorem get_none (hr : r.Follows n xs k) (hk : k = xs.length) :
  r.get n = (none, r)
  := by
  rw [RingBuffer.get, if_pos (hr.empty_iff.mpr hk)]

/-- What is read is the next element. -/
theorem get_some (hr : r.Follows n xs k) (hx : xs[k]? = some x) :
  ∃ r', r.get n = (some x, r') ∧ r'.Follows n xs (k + 1)
  := by
  have hlen := (List.getElem?_eq_some_iff.mp hx).1
  use { r with rpos := next n r.rpos }
  constructor
  · have hlt := hr.lt
    rw [RingBuffer.get, if_neg (mt hr.empty_iff.mp (by omega)), hr.rpos,
      hr.kept k x hx (by omega)]
  · constructor
    case rpos =>
      rw [← next_mod hr.pos, ← hr.rpos]
    case wpos => apply hr.wpos
    case le => apply hlen
    case lt =>
      have hlt := hr.lt
      rw [Nat.add_right_comm]
      apply Nat.lt_succ_of_lt hlt
    case kept => apply hr.kept

end Follows

/-! ### Histories -/

/-- A buffer, with what was put into it and what was read from it. -/
structure History (α : Type) where
  buffer : RingBuffer α
  arrived : List α := []
  taken : List α := []

/-- Something that happens to a buffer. -/
inductive Move (α : Type) where
  | put (x : α)
  | get

namespace History

variable {h : History α} {ms : List (Move α)}

/-- Make a move. -/
def step (n : Nat) (h : History α) : Move α → History α
  | .put x => { h with buffer := h.buffer.put n x, arrived := h.arrived ++ [x] }
  | .get =>
      { h with
        buffer := (h.buffer.get n).2
        taken := h.taken ++ (h.buffer.get n).1.toList }

/-- Make moves one after the other. -/
def run (n : Nat) (h : History α) (ms : List (Move α)) : History α :=
  ms.foldl (step n) h

theorem run_append (ms ms' : List (Move α)) :
  h.run n (ms ++ ms') = (h.run n ms).run n ms'
  := List.foldl_append

/-- The elements up to the `k`-th one hold all that was read. -/
structure Served (n : Nat) (h : History α) (k : Nat) : Prop where
  follows : h.buffer.Follows n h.arrived k
  taken : h.taken.Sublist (h.arrived.take k)

/-- Reading takes the next element, if there is one. -/
theorem Served.get (hs : h.Served n k) :
  (k = h.arrived.length ∧ h.step n .get = h) ∨
  ∃ x, h.arrived[k]? = some x ∧ (h.step n .get).taken = h.taken ++ [x]
    ∧ (h.step n .get).Served n (k + 1)
  := by
  rcases Nat.eq_or_lt_of_le hs.follows.le with heq | hlt
  · left
    use heq
    simp [step, hs.follows.get_none heq]
  · right
    have hx := List.getElem?_eq_getElem hlt
    rcases hs.follows.get_some hx with ⟨r', hget, hr'⟩
    refine ⟨_, hx, ?_, ?_, ?_⟩
    · simp [step, hget]
    · simpa [step, hget] using hr'
    · simp only [step, hget, Option.toList_some, List.take_add_one, hx]
      apply hs.taken.append (List.Sublist.refl _)

/-- Writing leaves what is next to be read, or moves it to the end. -/
theorem Served.put (hs : h.Served n k) (x : α) :
  (h.step n (.put x)).Served n (if h.arrived.length + 1 < k + n then k else h.arrived.length + 1)
  := by
  constructor
  case follows => apply hs.follows.put
  case taken =>
    apply hs.taken.trans
    apply List.IsPrefix.sublist
    change h.arrived.take k <+: (h.arrived ++ [x]).take _
    split
    case isTrue =>
      have htake : (h.arrived ++ [x]).take k = h.arrived.take k :=
        List.take_append_of_le_length hs.follows.le
      simp only [htake, List.prefix_rfl]
    case isFalse =>
      have hlen : (h.arrived ++ [x]).length = h.arrived.length + 1 := by simp
      rw [← hlen, List.take_length]
      apply (List.take_prefix k h.arrived).trans (List.prefix_append _ _)

theorem Served.step (hs : h.Served n k) (m : Move α) :
  ∃ k', (h.step n m).Served n k'
  := by
  cases m with
  | put x => exact ⟨_, hs.put x⟩
  | get =>
      rcases hs.get with ⟨-, hsame⟩ | ⟨x, -, -, hnext⟩
      · exact ⟨k, hsame.symm ▸ hs⟩
      · exact ⟨k + 1, hnext⟩

theorem Served.run (hs : h.Served n k) (ms : List (Move α)) :
  ∃ k', (h.run n ms).Served n k'
  := by
  induction ms generalizing h k with
  | nil => exact ⟨k, hs⟩
  | cons m ms ih =>
      rcases hs.step m with ⟨k', hs'⟩
      apply ih hs'

/-- While there is a place left at each moment, nothing is lost: what was read and what is still to
be read is what has arrived. -/
theorem Served.lossless (hs : h.Served n k) (hk : h.taken = h.arrived.take k)
    (hroom : ∀ ms', ms' <+: ms →
      (h.run n ms').arrived.length < (h.run n ms').taken.length + n) :
  (h.run n ms).taken ++ (h.run n ms).buffer.pending n = (h.run n ms).arrived
  := by
  induction ms generalizing h k with
  | nil =>
      rw [History.run, List.foldl_nil, hk, hs.follows.pending_eq]
      apply List.take_append_drop
  | cons m ms ih =>
      have hrest : ∀ ms', ms' <+: ms → ((h.step n m).run n ms').arrived.length
          < ((h.step n m).run n ms').taken.length + n := by
        intro ms' hms'
        apply hroom (m :: ms') (List.cons_prefix_cons.mpr ⟨rfl, hms'⟩)
      cases m with
      | put x =>
          have hlen : h.taken.length = k := by
            rw [hk, List.length_take_of_le hs.follows.le]
          have hnext : h.arrived.length + 1 < k + n := by
            have h0 := hrest [] List.nil_prefix
            simp only [History.run, List.foldl_nil, History.step, List.length_append,
              List.length_singleton, hlen] at h0
            apply h0
          have hput := hs.put x
          rw [if_pos hnext] at hput
          apply ih hput _ hrest
          rw [History.step, hk, List.take_append_of_le_length hs.follows.le]
      | get =>
          rcases hs.get with ⟨hend, hsame⟩ | ⟨x, hx, htaken, hget⟩
          · rw [hsame] at hrest
            have htail := ih hs hk hrest
            rw [History.run, List.foldl_cons, hsame]
            apply htail
          · apply ih hget _ hrest
            rw [htaken, hk, List.take_add_one]
            simp [History.step, hx]

end History

end RingBuffer
