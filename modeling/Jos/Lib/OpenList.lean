import Jos.Lib.Chain

/-!
# Linked lists that are still growing

A list that grows at its end is known by the place where the link to the next element will be
written: a variable while the list is empty, and the link out of its last element from then on.  Such
places are pointers to links, so that the variables and the links out of the elements are one memory
here, from places to links.

`Open m p l q` says that the list which starts at the place `p` has the elements `l`, and that the
next link is to be written to the place `q`.  What `q` holds before that does not matter.
-/

/-- Where a pointer to a link points: a variable, or the link out of an element. -/
inductive Pointee (ν α : Type) where
  | var (x : ν)
  | link (a : α)
  deriving DecidableEq

variable {ν α : Type}

/-- From the place `p` on the links lead through the elements of `l`, and the next place is `q`. -/
def Open (m : Pointee ν α → Option α) (p : Pointee ν α) : List α → Pointee ν α → Prop
  | [], q => q = p
  | a :: l, q => m p = some a ∧ Open m (.link a) l q

namespace Open

variable {m : Pointee ν α → Option α} {p q : Pointee ν α} {l : List α}

/-- The next place is that at the start, or the link out of an element. -/
theorem tail (h : Open m p l q) :
  q = p ∨ ∃ a ∈ l, q = .link a
  := by
  induction l generalizing p with
  | nil =>
      left
      apply h
  | cons a l ih =>
      right
      rcases ih h.2 with heq | ⟨b, hb, heq⟩
      · exact ⟨a, List.mem_cons_self, heq⟩
      · exact ⟨b, List.mem_cons_of_mem a hb, heq⟩

/-- What was written to the next place is the next element. -/
theorem snoc {b : α} (h : Open m p l q) (hb : m q = some b) :
  Open m p (l ++ [b]) (.link b)
  := by
  induction l generalizing p with
  | nil =>
      obtain rfl : q = p := h
      exact ⟨hb, rfl⟩
  | cons a l ih => exact ⟨h.1, ih h.2⟩

/-- The list goes on with what the next place holds. -/
theorem close {l' : List α} (h : Open m p l q) (hl' : Chain (fun a => m (.link a)) (m q) l') :
  Chain (fun a => m (.link a)) (m p) (l ++ l')
  := by
  induction l generalizing p with
  | nil =>
      obtain rfl : q = p := h
      apply hl'
  | cons a l ih =>
      constructor
      · apply h.1
      · apply ih h.2

variable [DecidableEq ν] [DecidableEq α] {v : Option α}

/-- Writing to a place that is not one of the list does not change the list. -/
theorem write_other {r : Pointee ν α} (h : Open m p l q) (hp : r ≠ p) (hl : ∀ a ∈ l, r ≠ .link a) :
  Open (Function.update m r v) p l q
  := by
  induction l generalizing p with
  | nil => apply h
  | cons a l ih =>
      constructor
      · rw [Function.update_of_ne hp.symm]
        apply h.1
      · apply ih h.2 (hl a List.mem_cons_self)
        intro b hb
        apply hl b (List.mem_cons_of_mem a hb)

/-- Nor does writing to the next place. -/
theorem write_tail (h : Open m p l q) (hp : ∀ a ∈ l, p ≠ .link a) (hnodup : l.Nodup) :
  Open (Function.update m q v) p l q
  := by
  induction l generalizing p with
  | nil => apply h
  | cons a l ih =>
      obtain ⟨hnot, hnodup⟩ := List.nodup_cons.mp hnodup
      constructor
      · rw [Function.update_of_ne]
        · apply h.1
        · rcases tail h.2 with heq | ⟨b, hb, heq⟩
          · rw [heq]
            apply hp a List.mem_cons_self
          · rw [heq]
            apply hp b (List.mem_cons_of_mem a hb)
      · apply ih h.2 _ hnodup
        rintro b hb heq
        cases heq
        apply hnot hb

end Open
