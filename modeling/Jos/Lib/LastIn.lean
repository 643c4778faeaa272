import Mathlib.Tactic.Common

/-!
# The last place in a range

For a property of integers, `NoneIn p a b` says that no integer from `a` to `b` has it, and
`LastIn p a b i` that `i` is the last one from `a` to `b` that has it.  A search that goes through a
range piece by piece puts such facts about the pieces together.
-/

/-- No integer from `a` to `b` has the property `p`. -/
def NoneIn (p : Int → Prop) (a b : Int) : Prop :=
  ∀ i, a ≤ i → i ≤ b → ¬ p i

/-- The last integer from `a` to `b` with the property `p` is `i`. -/
structure LastIn (p : Int → Prop) (a b i : Int) : Prop where
  lo : a ≤ i
  hi : i ≤ b
  holds : p i
  after : NoneIn p (i + 1) b

variable {p q : Int → Prop} {a b c i j : Int}

/-! ### Ranges without the property -/

theorem noneIn_of_lt (h : b < a) :
  NoneIn p a b
  := by
  intro i hi hi'
  omega

theorem NoneIn.append (h : NoneIn p a b) (h' : NoneIn p (b + 1) c) :
  NoneIn p a c
  := by
  intro i hi hi'
  rcases Int.lt_or_le b i with hlt | hle
  · apply h' i (by omega) hi'
  · apply h i hi hle

theorem NoneIn.within {a' b' : Int} (h : NoneIn p a b) (ha : a ≤ a') (hb : b' ≤ b) :
  NoneIn p a' b'
  := by
  intro i hi hi'
  apply h i (by omega) (by omega)

/-! ### The last place with the property -/

theorem LastIn.unique (h : LastIn p a b i) (h' : LastIn p a b j) :
  i = j
  := by
  rcases Int.lt_trichotomy i j with hlt | heq | hgt
  · apply (h.after j (by omega) h'.hi h'.holds).elim
  · apply heq
  · apply (h'.after i (by omega) h.hi h.holds).elim

/-- What lies behind the last place may be left out or added. -/
theorem LastIn.extend (h : LastIn p a b i) (hnone : NoneIn p (b + 1) c) (hle : i ≤ c) :
  LastIn p a c i
  := by
  constructor
  case lo => apply h.lo
  case hi => apply hle
  case holds => apply h.holds
  case after => apply h.after.append hnone
