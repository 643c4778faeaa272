import Mathlib.Data.List.Range
import Mathlib.Tactic.Common

/-!
# Choosing in circular order

`n` places are arranged in a circle.  Whoever is ready waits at a place, and each time the
first ready place after the one served last is served.  A place that stays ready is then
never passed over twice by the same other place.
-/

namespace RoundRobin

variable {n k e : Nat} {ready : Nat → Prop}

/-- How many places lie between the place `k` and the next place `e` after it, going round
the circle of `n` places.  The place `k` itself comes last. -/
def ahead (n k e : Nat) : Nat :=
  if k < e then e - k - 1 else n + e - k - 1

/-- The place `e` is the first ready one after the place `k`. -/
structure IsNext (n : Nat) (ready : Nat → Prop) (k e : Nat) : Prop where
  lt : e < n
  isReady : ready e
  first : ∀ e' < n, ready e' → ahead n k e ≤ ahead n k e'

/-- The places of the circle in the order in which they are looked at after the place `k`. -/
theorem ahead_mod {i : Nat} (hk : k < n) (hi : i < n) :
  ahead n k (((k + 1) % n + i) % n) = i
  := by
  have hfirst : (k + 1) % n = if k + 1 = n then 0 else k + 1 := by
    split
    case isTrue h => rw [h, Nat.mod_self]
    case isFalse h => rw [Nat.mod_eq_of_lt (by omega)]
  rw [hfirst]
  by_cases hlt : (if k + 1 = n then 0 else k + 1) + i < n
  · rw [Nat.mod_eq_of_lt hlt]
    unfold ahead
    split_ifs at hlt ⊢ <;> omega
  · rw [Nat.mod_eq_sub_mod (by omega), Nat.mod_eq_of_lt]
    · unfold ahead
      split_ifs at hlt ⊢ <;> omega
    · split_ifs at hlt ⊢ <;> omega

theorem ahead_lt (hk : k < n) (he : e < n) :
  ahead n k e < n
  := by
  unfold ahead
  split_ifs <;> omega

/-- Every place is reached when the circle is gone round. -/
theorem mod_ahead (hk : k < n) (he : e < n) :
  ((k + 1) % n + ahead n k e) % n = e
  := by
  have hinj : ∀ e' < n, ahead n k e' = ahead n k e → e' = e := by
    intro e' he' h
    unfold ahead at h
    split_ifs at h <;> omega
  apply hinj _ (Nat.mod_lt _ (by omega))
  apply ahead_mod hk (ahead_lt hk he)

/-- There is at most one first ready place. -/
theorem IsNext.unique {e' : Nat} (hk : k < n) (h : IsNext n ready k e)
    (h' : IsNext n ready k e') :
  e = e'
  := by
  have hle := h.first e' h'.lt h'.isReady
  have hge := h'.first e h.lt h.isReady
  have he := h.lt
  have he' := h'.lt
  unfold ahead at hle hge
  split_ifs at hle hge <;> omega

/-! ### Going round -/

variable [DecidablePred ready]

/-- Looking at the places after `k` one by one finds the first ready one. -/
theorem isNext_of_find? {i : Nat} (hk : k < n)
    (h : (List.range n).find? (fun i => ready (((k + 1) % n + i) % n)) = some i) :
  IsNext n ready k (((k + 1) % n + i) % n)
  := by
  obtain ⟨hready, hmem, hfirst⟩ := List.find?_range_eq_some.mp h
  have hi : i < n := List.mem_range.mp hmem
  constructor
  case lt => apply Nat.mod_lt _ (by omega)
  case isReady => apply of_decide_eq_true hready
  case first =>
    intro e he hr
    rw [ahead_mod hk hi]
    by_contra hlt
    have hno := hfirst (ahead n k e) (by omega)
    rw [mod_ahead hk he] at hno
    simp [hr] at hno

/-- If nothing is found no place is ready. -/
theorem not_ready_of_find? (hk : k < n)
    (h : (List.range n).find? (fun i => ready (((k + 1) % n + i) % n)) = none) :
  ∀ e < n, ¬ ready e
  := by
  intro e he hr
  have hno := List.find?_eq_none.mp h (ahead n k e) (List.mem_range.mpr (ahead_lt hk he))
  simp only [mod_ahead hk he, decide_eq_true_eq] at hno
  apply hno hr

/-- If some place is ready there is a first one. -/
theorem exists_isNext (hk : k < n) (he : e < n) (hready : ready e) :
  ∃ e', IsNext n ready k e'
  := by
  cases h : (List.range n).find? (fun i => ready (((k + 1) % n + i) % n)) with
  | none => apply (not_ready_of_find? hk h e he hready).elim
  | some i =>
      use ((k + 1) % n + i) % n
      apply isNext_of_find? hk h

/-! ### Not passing over twice -/

/-- Going round from the place `a`, the place `k` comes before the place `b`. -/
def Before (n a b k : Nat) : Prop :=
  k < n ∧ (k = a ∨ ahead n a k < ahead n a b)

omit [DecidablePred ready] in
/-- A place that stays ready is served before the circle is gone round. -/
theorem Before.next {a b : Nat} (ha : a < n) (hb : b < n)
    (h : Before n a b k) (hready : ready b) (hnext : IsNext n ready k e) :
  e = b ∨ (Before n a b e ∧ e ≠ a)
  := by
  obtain ⟨hk, hbefore⟩ := h
  have hle := hnext.first b hb hready
  have he := hnext.lt
  by_cases heb : e = b
  · left
    apply heb
  · right
    unfold Before
    unfold ahead at hle hbefore ⊢
    split_ifs at hle hbefore ⊢ <;> omega

end RoundRobin
