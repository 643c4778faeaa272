import Mathlib.Data.Finset.Card
import Mathlib.Data.Finset.Option
import Mathlib.Algebra.Order.BigOperators.Group.Finset
import Mathlib.Tactic.Common

/-!
# Counting references

Slots `ι` hold references to items `ρ`.  The number of references to an item is the
number of slots, among a finite set of them, that refer to it.
-/

variable {ι ρ : Type} [DecidableEq ρ]

/-- The number of slots in `S` that refer to `p`. -/
def refCount (S : Finset ι) (ref : ι → Option ρ) (p : ρ) : Nat :=
  (S.filter (fun x => ref x = some p)).card

namespace refCount

variable {S : Finset ι} {ref : ι → Option ρ} {p : ρ} {x : ι}

/-- Setting a slot takes away the reference it held and adds the one it now holds. -/
theorem update [DecidableEq ι] (ref : ι → Option ρ) (v : Option ρ) (p : ρ) (hx : x ∈ S) :
  refCount S (Function.update ref x v) p + (if ref x = some p then 1 else 0)
    = refCount S ref p + (if v = some p then 1 else 0)
  := by
  have rest : ∀ f : ι → Option ρ, refCount S f p
      = ((S.erase x).filter (fun y => f y = some p)).card + (if f x = some p then 1 else 0) := by
    intro f
    rw [refCount, ← Finset.insert_erase hx, Finset.filter_insert, Finset.erase_insert_eq_erase,
      Finset.erase_idem]
    split
    case isTrue h =>
      rw [Finset.card_insert_of_notMem (by simp)]
    case isFalse h => rfl
  have same : (S.erase x).filter (fun y => Function.update ref x v y = some p)
      = (S.erase x).filter (fun y => ref y = some p) := by
    apply Finset.filter_congr
    intro y hy
    rw [Function.update_of_ne (Finset.ne_of_mem_erase hy)]
  rw [rest, rest ref, same, Function.update_self]
  omega

/-- References held by the same slots are counted alike. -/
theorem congr {ref' : ι → Option ρ} (h : ∀ x ∈ S, ref' x = some p ↔ ref x = some p) :
  refCount S ref' p = refCount S ref p
  := by
  rw [refCount, refCount, Finset.filter_congr h]

/-- Fewer references are held when slots only let go of what they refer to. -/
theorem mono {ref' : ι → Option ρ} (h : ∀ x ∈ S, ref' x = some p → ref x = some p) :
  refCount S ref' p ≤ refCount S ref p
  := by
  apply Finset.card_le_card
  intro x hx
  obtain ⟨hxS, hx⟩ := Finset.mem_filter.mp hx
  apply Finset.mem_filter.mpr
  use hxS
  apply h x hxS hx

/-- An item has a reference exactly when some slot refers to it. -/
theorem pos_iff :
  0 < refCount S ref p ↔ ∃ x ∈ S, ref x = some p
  := by
  rw [refCount, Finset.card_pos]
  constructor
  · rintro ⟨x, hx⟩
    use x
    apply Finset.mem_filter.mp hx
  · rintro ⟨x, hx⟩
    use x
    apply Finset.mem_filter.mpr hx

/-- An item has no reference exactly when no slot refers to it. -/
theorem eq_zero_iff :
  refCount S ref p = 0 ↔ ∀ x ∈ S, ref x ≠ some p
  := by
  have h : 0 < refCount S ref p ↔ ∃ x ∈ S, ref x = some p := pos_iff
  constructor
  · intro h0 x hx hr
    have := h.mpr ⟨x, hx, hr⟩
    omega
  · intro hn
    by_contra hne
    obtain ⟨x, hx, hr⟩ := h.mp (by omega)
    apply hn x hx hr

/-- A slot that refers to `p` alone makes one reference. -/
theorem eq_one (hx : x ∈ S) (hr : ref x = some p) (h : ∀ y ∈ S, ref y = some p → y = x) :
  refCount S ref p = 1
  := by
  rw [refCount, Finset.card_eq_one]
  use x
  ext y
  rw [Finset.mem_filter, Finset.mem_singleton]
  constructor
  · rintro ⟨hy, hy'⟩
    apply h y hy hy'
  · rintro rfl
    use hx

end refCount

/-! ### The items in use -/

/-- The items that slots in `S` refer to. -/
def refUsed (S : Finset ι) (ref : ι → Option ρ) : Finset ρ :=
  S.biUnion (fun x => (ref x).toFinset)

/-- The items that slots in `S` refer to, but only such that are in `A`. -/
def onlyFrom (S A : Finset ι) [DecidableEq ι] (ref : ι → Option ρ) : Finset ρ :=
  (refUsed S ref).filter (fun p => ∀ x ∈ S, ref x = some p → x ∈ A)

section refUsed

variable {S A B : Finset ι} {ref ref' : ι → Option ρ} {p : ρ}

theorem mem_refUsed :
  p ∈ refUsed S ref ↔ ∃ x ∈ S, ref x = some p
  := by
  rw [refUsed, Finset.mem_biUnion]
  simp only [Option.mem_toFinset, Option.mem_def]

/-- As many items are referred to as there are slots, at most. -/
theorem card_refUsed_le :
  (refUsed S ref).card ≤ (S.filter (fun x => ref x ≠ none)).card
  := by
  have heq : refUsed S ref = refUsed (S.filter (fun x => ref x ≠ none)) ref := by
    ext p
    rw [mem_refUsed, mem_refUsed]
    constructor
    · rintro ⟨x, hx, hp⟩
      refine ⟨x, Finset.mem_filter.mpr ⟨hx, ?_⟩, hp⟩
      rw [hp]
      simp
    · rintro ⟨x, hx, hp⟩
      exact ⟨x, (Finset.mem_filter.mp hx).1, hp⟩
  rw [heq]
  apply Finset.card_biUnion_le.trans
  rw [Finset.card_eq_sum_ones]
  apply Finset.sum_le_sum
  intro x _
  cases ref x with
  | none => simp
  | some q => simp

variable [DecidableEq ι]

theorem mem_onlyFrom :
  p ∈ onlyFrom S A ref ↔ (∃ x ∈ S, ref x = some p) ∧ ∀ x ∈ S, ref x = some p → x ∈ A
  := by rw [onlyFrom, Finset.mem_filter, mem_refUsed]

/-- More slots free more items, one each at most, and none if they are empty. -/
theorem card_onlyFrom_le :
  (onlyFrom S B ref).card
    ≤ (onlyFrom S A ref).card + ((B \ A).filter (fun x => ref x ≠ none)).card
  := by
  have hsub : onlyFrom S B ref ⊆ onlyFrom S A ref ∪ refUsed (B \ A) ref := by
    intro p hp
    obtain ⟨hex, hall⟩ := mem_onlyFrom.mp hp
    rw [Finset.mem_union]
    by_cases hA : ∀ x ∈ S, ref x = some p → x ∈ A
    · left
      exact mem_onlyFrom.mpr ⟨hex, hA⟩
    · right
      push Not at hA
      obtain ⟨x, hx, hr, hxA⟩ := hA
      exact mem_refUsed.mpr ⟨x, Finset.mem_sdiff.mpr ⟨hall x hx hr, hxA⟩, hr⟩
  calc (onlyFrom S B ref).card
      ≤ (onlyFrom S A ref ∪ refUsed (B \ A) ref).card := Finset.card_le_card hsub
    _ ≤ (onlyFrom S A ref).card + (refUsed (B \ A) ref).card := Finset.card_union_le _ _
    _ ≤ _ := Nat.add_le_add_left card_refUsed_le _

/-- When the slots in `A` get items of their own, the items in use are more by the number of the
slots, less those that only these slots referred to. -/
theorem card_refUsed_replace (hA : A ⊆ S) (hsame : ∀ x ∈ S, x ∉ A → ref' x = ref x)
    (hsole : ∀ x ∈ A, ∃ p, ref' x = some p ∧ ∀ y ∈ S, ref' y = some p → y = x) :
  (refUsed S ref').card + (onlyFrom S A ref).card = (refUsed S ref).card + A.card
  := by
  -- what the other slots refer to is in use before and after
  have hold : (refUsed S ref).card = (refUsed (S \ A) ref).card + (onlyFrom S A ref).card := by
    rw [← Finset.card_union_of_disjoint]
    · congr 1
      ext p
      rw [Finset.mem_union, mem_refUsed, mem_refUsed, mem_onlyFrom]
      constructor
      · intro hp
        by_cases hall : ∀ x ∈ S, ref x = some p → x ∈ A
        · exact Or.inr ⟨hp, hall⟩
        · left
          push Not at hall
          obtain ⟨x, hx, hr, hxA⟩ := hall
          exact ⟨x, Finset.mem_sdiff.mpr ⟨hx, hxA⟩, hr⟩
      · rintro (⟨x, hx, hr⟩ | ⟨hp, -⟩)
        · exact ⟨x, (Finset.mem_sdiff.mp hx).1, hr⟩
        · exact hp
    · rw [Finset.disjoint_left]
      intro p hp hp'
      obtain ⟨x, hx, hr⟩ := mem_refUsed.mp hp
      obtain ⟨hxS, hxA⟩ := Finset.mem_sdiff.mp hx
      exact hxA ((mem_onlyFrom.mp hp').2 x hxS hr)
  have hnew : (refUsed S ref').card = (refUsed (S \ A) ref).card + (refUsed A ref').card := by
    rw [← Finset.card_union_of_disjoint]
    · congr 1
      ext p
      rw [Finset.mem_union, mem_refUsed, mem_refUsed, mem_refUsed]
      constructor
      · rintro ⟨x, hx, hr⟩
        by_cases hxA : x ∈ A
        · exact Or.inr ⟨x, hxA, hr⟩
        · rw [hsame x hx hxA] at hr
          exact Or.inl ⟨x, Finset.mem_sdiff.mpr ⟨hx, hxA⟩, hr⟩
      · rintro (⟨x, hx, hr⟩ | ⟨x, hx, hr⟩)
        · obtain ⟨hxS, hxA⟩ := Finset.mem_sdiff.mp hx
          rw [← hsame x hxS hxA] at hr
          exact ⟨x, hxS, hr⟩
        · exact ⟨x, hA hx, hr⟩
    · rw [Finset.disjoint_left]
      intro p hp hp'
      obtain ⟨x, hx, hr⟩ := mem_refUsed.mp hp
      obtain ⟨hxS, hxA⟩ := Finset.mem_sdiff.mp hx
      obtain ⟨y, hy, hr'⟩ := mem_refUsed.mp hp'
      obtain ⟨q, hq, hall⟩ := hsole y hy
      rw [hr'] at hq
      obtain rfl := Option.some.inj hq
      rw [← hsame x hxS hxA] at hr
      exact hxA (hall x hxS hr ▸ hy)
  have hcard : (refUsed A ref').card = A.card := by
    rw [refUsed, Finset.card_biUnion]
    · rw [Finset.card_eq_sum_ones]
      apply Finset.sum_congr rfl
      intro x hx
      obtain ⟨p, hp, -⟩ := hsole x hx
      rw [hp]
      simp
    · intro x hx y hy hne
      rw [Function.onFun, Finset.disjoint_left]
      intro p hp hp'
      rw [Option.mem_toFinset, Option.mem_def] at hp hp'
      obtain ⟨q, hq, hall⟩ := hsole x hx
      rw [hp] at hq
      obtain rfl := Option.some.inj hq
      exact hne (hall y (hA hy) hp').symm
  omega

end refUsed
