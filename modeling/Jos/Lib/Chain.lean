import Mathlib.Data.List.Nodup
import Mathlib.Logic.Function.Basic
import Mathlib.Tactic.Common

/-!
# Linked lists

A linked list over `α` is given by its head and by the link out of each element.
`Chain next h l` says that following the links from `h` passes through the elements
of `l` in order and then ends.
-/

variable {α : Type}

/-- The links lead from `h` through the elements of `l` in order, and then end. -/
def Chain (next : α → Option α) : Option α → List α → Prop
  | h, [] => h = none
  | h, a :: l => h = some a ∧ Chain next (next a) l

namespace Chain

variable {next next' : α → Option α} {h : Option α} {l : List α}

/-- Only the links out of the listed elements matter. -/
theorem congr (hl : Chain next h l) (hn : ∀ a ∈ l, next' a = next a) :
  Chain next' h l
  := by
  induction l generalizing h with
  | nil => apply hl
  | cons a l ih =>
      obtain ⟨rfl, hl⟩ := hl
      constructor
      · rfl
      · rw [hn a List.mem_cons_self]
        apply ih hl
        intro b hb
        apply hn b (List.mem_cons_of_mem a hb)

/-- The list a head and links present is unique. -/
theorem unique {l' : List α} (hl : Chain next h l) (hl' : Chain next h l') :
  l = l'
  := by
  induction l generalizing h l' with
  | nil =>
      cases l' with
      | nil => rfl
      | cons b l' =>
          obtain rfl := hl
          obtain ⟨hb, -⟩ := hl'
          cases hb
  | cons a l ih =>
      obtain ⟨rfl, hl⟩ := hl
      cases l' with
      | nil => cases hl'
      | cons b l' =>
          obtain ⟨hb, hl'⟩ := hl'
          obtain rfl := Option.some.inj hb
          rw [ih hl hl']

/-- A list whose head is `a` starts with `a`. -/
theorem eq_cons {a : α} (hl : Chain next (some a) l) :
  ∃ l', l = a :: l' ∧ Chain next (next a) l'
  := by
  cases l with
  | nil => cases hl
  | cons b l =>
      obtain ⟨hb, hl⟩ := hl
      obtain rfl := Option.some.inj hb
      use l

/-- A part at the end of a list is a list. -/
theorem drop {l' : List α} (hl : Chain next h (l ++ l')) :
  ∃ h', Chain next h' l'
  := by
  induction l generalizing h with
  | nil => exact ⟨h, hl⟩
  | cons a l ih => apply ih hl.2

/-- A list that ends has no element twice: what follows an element is one list only. -/
theorem nodup (hl : Chain next h l) :
  l.Nodup
  := by
  induction l generalizing h with
  | nil => apply List.nodup_nil
  | cons a l ih =>
      rw [List.nodup_cons]
      constructor
      · intro hmem
        obtain ⟨l1, l2, heq⟩ := List.append_of_mem hmem
        have hrest := hl.2
        rw [heq] at hrest
        obtain ⟨h', hback⟩ := hrest.drop
        have hsame := (hl.2).unique hback.2
        have hlength := congrArg List.length (heq.symm.trans hsame)
        rw [List.length_append, List.length_cons] at hlength
        omega
      · apply ih hl.2

variable [DecidableEq α]

/-- A list not containing `a` is the rest of the list after `a` is linked to its head. -/
theorem push {a : α} (hl : Chain next h l) (ha : a ∉ l) :
  Chain (Function.update next a h) (some a) (a :: l)
  := by
  constructor
  · rfl
  · rw [Function.update_self]
    apply hl.congr
    intro b hb
    apply Function.update_of_ne
    rintro rfl
    apply ha hb

end Chain
