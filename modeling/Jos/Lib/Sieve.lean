import Mathlib.Data.List.Infix
import Mathlib.NumberTheory.PrimeCounting

/-!
# Sieving a list

To sieve a list of numbers is to keep the first, to strike out its multiples from what is left, and
to sieve that.  The numbers from two on, in order, are sieved to the primes among them, and a longer
list is sieved to a longer one.
-/

namespace Sieve

variable {p n k : Nat} {l l' : List Nat}

/-- Strike out the multiples of `p`. -/
def sift (p : Nat) (l : List Nat) : List Nat :=
  l.filter (fun n => n % p ≠ 0)

/-- Keep the first number and sieve what its multiples are struck out from. -/
def sieve : List Nat → List Nat
  | [] => []
  | p :: l => p :: sieve (sift p l)
  termination_by l => l.length
  decreasing_by exact Nat.lt_succ_of_le (List.length_filter_le _ _)

@[simp]
theorem sieve_nil :
  sieve [] = []
  := by rw [sieve]

theorem sieve_cons :
  sieve (p :: l) = p :: sieve (sift p l)
  := by rw [sieve]

theorem sift_append :
  sift p (l ++ l') = sift p l ++ sift p l'
  := List.filter_append ..

theorem sift_singleton :
  sift p [n] = if n % p = 0 then [] else [n]
  := by
  rw [sift, List.filter_singleton]
  by_cases h : n % p = 0
  · simp [h]
  · simp [h]

theorem length_sift_le :
  (sift p l).length ≤ l.length
  := List.length_filter_le _ _

/-- A longer list is sieved to a longer one. -/
theorem sieve_mono (h : l <+: l') :
  sieve l <+: sieve l'
  := by
  induction hlen : l.length using Nat.strong_induction_on generalizing l l' with
  | h len ih =>
      cases l with
      | nil =>
          rw [sieve_nil]
          exact List.nil_prefix
      | cons p l =>
          cases l' with
          | nil => exact absurd (List.prefix_nil.mp h) (List.cons_ne_nil _ _)
          | cons p' l' =>
              obtain ⟨rfl, hl⟩ := List.cons_prefix_cons.mp h
              rw [sieve_cons, sieve_cons, List.cons_prefix_cons]
              have hlt : (sift p l).length < len := by
                rw [← hlen]
                exact Nat.lt_succ_of_le length_sift_le
              exact ⟨rfl, ih _ hlt (hl.filter _) rfl⟩

/-! ### The sieved list -/

/-- Sorted numbers of which none is missing that has no smaller divisor in the list. -/
structure Rough (l : List Nat) : Prop where
  sorted : l.Pairwise (· < ·)
  two_le : ∀ n ∈ l, 2 ≤ n
  closed : ∀ n ∈ l, ∀ q, q.Prime → q ∣ n → q ∈ l

theorem Rough.head_prime (h : Rough (p :: l)) :
  p.Prime
  := by
  have hp := h.two_le p (List.mem_cons_self ..)
  have hq := Nat.minFac_prime (n := p) (by omega)
  have hin := h.closed p (List.mem_cons_self ..) _ hq (Nat.minFac_dvd p)
  rcases List.mem_cons.mp hin with heq | hin
  · rw [← heq]
    exact hq
  · have hlt := (List.pairwise_cons.mp h.sorted).1 _ hin
    exact absurd (Nat.minFac_le (n := p) (by omega)) (by omega)

theorem Rough.tail (h : Rough (p :: l)) :
  Rough (sift p l)
  := by
  have hp := h.head_prime
  constructor
  case sorted => exact (List.pairwise_cons.mp h.sorted).2.filter _
  case two_le =>
    intro n hn
    exact h.two_le n (List.mem_cons_of_mem _ (List.mem_of_mem_filter hn))
  case closed =>
    intro n hn q hq hdvd
    have hin := List.mem_filter.mp hn
    have hndvd : ¬ p ∣ n := by
      rw [Nat.dvd_iff_mod_eq_zero]
      exact of_decide_eq_true hin.2
    have hqp : q ≠ p := by
      rintro rfl
      exact hndvd hdvd
    rcases List.mem_cons.mp (h.closed n (List.mem_cons_of_mem _ hin.1) q hq hdvd) with rfl | hql
    · exact absurd rfl hqp
    · apply List.mem_filter.mpr
      refine ⟨hql, decide_eq_true ?_⟩
      rw [Ne, ← Nat.dvd_iff_mod_eq_zero, Nat.prime_dvd_prime_iff_eq hp hq]
      exact fun heq => hqp heq.symm

/-- Sieving leaves the primes. -/
theorem Rough.sieve_eq (h : Rough l) :
  sieve l = l.filter Nat.Prime
  := by
  induction hlen : l.length using Nat.strong_induction_on generalizing l with
  | h len ih =>
      cases l with
      | nil => rw [sieve_nil, List.filter_nil]
      | cons p l =>
          have hlt : (sift p l).length < len := by
            rw [← hlen]
            exact Nat.lt_succ_of_le length_sift_le
          rw [sieve_cons, ih _ hlt h.tail rfl, List.filter_cons, if_pos (decide_eq_true h.head_prime),
            sift, List.filter_filter]
          congr 1
          apply List.filter_congr
          intro n hn
          have hpn := (List.pairwise_cons.mp h.sorted).1 n hn
          by_cases hprime : n.Prime
          · have hne : n % p ≠ 0 := by
              rw [Ne, ← Nat.dvd_iff_mod_eq_zero, Nat.prime_dvd_prime_iff_eq h.head_prime hprime]
              omega
            simp [hprime, hne]
          · simp [hprime]

theorem rough_range (k : Nat) :
  Rough (List.range' 2 k)
  := by
  constructor
  case sorted => exact List.pairwise_lt_range'
  case two_le =>
    intro n hn
    rw [List.mem_range'_1] at hn
    exact hn.1
  case closed =>
    intro n hn q hq hdvd
    rw [List.mem_range'_1] at hn ⊢
    have hle := Nat.le_of_dvd (by omega) hdvd
    exact ⟨hq.two_le, by omega⟩

/-- The numbers from two on are sieved to the primes. -/
theorem sieve_range (k : Nat) :
  sieve (List.range' 2 k) = (List.range (k + 2)).filter Nat.Prime
  := by
  rw [(rough_range k).sieve_eq, List.range_eq_range', Nat.add_comm k 2, ← List.range'_append_1,
    List.filter_append]
  rfl

/-- The primes below a number are the first ones. -/
theorem filter_prime_range (n : Nat) :
  (List.range n).filter Nat.Prime = (List.range (n.count Nat.Prime)).map (Nat.nth Nat.Prime)
  := by
  induction n with
  | zero => rfl
  | succ n ih =>
      rw [List.range_succ, List.filter_append, ih, Nat.count_succ]
      by_cases hn : n.Prime
      · rw [if_pos hn, List.range_succ, List.map_append, List.map_singleton, Nat.nth_count hn,
          List.filter_singleton, decide_eq_true hn]
        rfl
      · rw [if_neg hn, List.filter_singleton, decide_eq_false hn]
        exact List.append_nil _

/-- What is sieved from the numbers from two on are the first primes. -/
theorem eq_nth_primes (h : l <+: sieve (List.range' 2 k)) :
  l = (List.range l.length).map (Nat.nth Nat.Prime)
  := by
  rw [sieve_range, filter_prime_range] at h
  have hlen := h.length_le
  rw [List.length_map, List.length_range] at hlen
  rw [List.prefix_iff_eq_take.mp h, ← List.map_take, List.take_range, List.length_map, List.length_range]

end Sieve
