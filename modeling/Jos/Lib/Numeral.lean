import Mathlib.Data.Nat.Digits.Lemmas

/-!
# Numerals

The numeral of a number in a base has the first digit first.  The number zero has the numeral `0`, and
all other numerals have no zero in front; so a number has exactly one numeral.

A numeral is made by dividing: its last digit is the remainder, and the digits in front of that one
are the numeral of the quotient.
-/

/-- The digits of a number, the first one first. -/
structure Numeral (base n : Nat) (ds : List Nat) : Prop where
  value : Nat.ofDigits base ds.reverse = n
  lt : ∀ d ∈ ds, d < base
  ne_nil : ds ≠ []
  /-- There is no superfluous zero in front. -/
  head : ds.head? = some 0 → ds = [0]

/-- The digits of a number, the first one first. -/
def numeral (base n : Nat) : List Nat :=
  if n = 0 then [0] else (Nat.digits base n).reverse

variable {base n d : Nat} {ds : List Nat}

theorem numeral_isNumeral (hbase : 1 < base) (n : Nat) :
  Numeral base n (numeral base n)
  := by
  rw [numeral]
  split
  case isTrue hzero =>
    subst hzero
    constructor
    case value => simp
    case lt =>
      intro d hd
      rw [List.mem_singleton.mp hd]
      omega
    case ne_nil => simp
    case head => simp
  case isFalse hne =>
    constructor
    case value => rw [List.reverse_reverse, Nat.ofDigits_digits]
    case lt =>
      intro d hd
      apply Nat.digits_lt_base hbase (List.mem_reverse.mp hd)
    case ne_nil => simpa using Nat.digits_ne_nil_iff_ne_zero.mpr hne
    case head =>
      intro hhead
      rw [List.head?_reverse] at hhead
      have hnil : Nat.digits base n ≠ [] := Nat.digits_ne_nil_iff_ne_zero.mpr hne
      rw [List.getLast?_eq_some_getLast hnil, Option.some_inj] at hhead
      apply absurd hhead (Nat.getLast_digit_ne_zero base hne)

/-- A number has one numeral. -/
theorem Numeral.unique (hbase : 1 < base) (h : Numeral base n ds) :
  ds = numeral base n
  := by
  rw [numeral]
  split
  case isTrue hzero =>
    apply h.head
    rcases ds with _ | ⟨d, ds⟩
    · cases h.ne_nil rfl
    · have hvalue := h.value
      rw [hzero] at hvalue
      have hd : d = 0 := Nat.digits_zero_of_eq_zero (by omega) hvalue d (by simp)
      rw [hd]
      rfl
  case isFalse hne =>
    have hlast : ∀ hnil : ds.reverse ≠ [], ds.reverse.getLast hnil ≠ 0 := by
      intro hnil hlast
      have hhead : ds.head? = some 0 := by
        rw [← hlast, ← List.getLast?_eq_some_getLast hnil, List.getLast?_reverse]
      have hvalue := h.value
      rw [h.head hhead] at hvalue
      apply hne hvalue.symm
    have hdigits := Nat.digits_ofDigits base hbase ds.reverse
      (fun d hd => h.lt d (List.mem_reverse.mp hd)) hlast
    rw [h.value] at hdigits
    rw [hdigits, List.reverse_reverse]

/-- A digit is its own numeral. -/
theorem numeral_digit (hn : n < base) :
  numeral base n = [n]
  := by
  rw [numeral]
  split
  case isTrue hzero => rw [hzero]
  case isFalse hne => rw [Nat.digits_of_lt base n hne hn, List.reverse_singleton]

/-- The last digit is the remainder. -/
theorem numeral_divide (hbase : 1 < base) (hn : base ≤ n) :
  numeral base n = numeral base (n / base) ++ [n % base]
  := by
  have hne : n ≠ 0 := by omega
  have hdiv : n / base ≠ 0 := by
    apply Nat.div_ne_zero_iff.mpr
    omega
  rw [numeral, numeral, if_neg hne, if_neg hdiv, Nat.digits_eq_cons_digits_div hbase hne,
    List.reverse_cons]

/-- A number below a power of the base has no more digits than that. -/
theorem numeral_length_le {k : Nat} (hbase : 1 < base) (hk : 0 < k) (hn : n < base ^ k) :
  (numeral base n).length ≤ k
  := by
  rw [numeral]
  split
  case isTrue => apply hk
  case isFalse =>
    rw [List.length_reverse]
    apply (Nat.digits_length_le_iff hbase n).mpr hn
