import Mathlib.Data.Finset.Basic
import Mathlib.Data.List.Nodup
import Jos.Lib.RefCount

/-!
# A reference-counted store

Items `ρ` are referred to from slots `ι`, counted by a counter that wraps at `M`, and
kept on a list of free items while nothing refers to them.  A program that works on a
store can have an item in hand in two ways: an item it has taken off the free list and
not yet counted is held, and it can have references of its own to an item, beside those
of the slots.

A store is balanced when the counters count the references of the slots and of the
program, and the free items are exactly the items without a reference that are not held.
Some slots own what they refer to: no other slot refers to it.  Taking, giving back,
retaining, releasing, attaching and detaching keep a store balanced as long as the
counter that is released has not wrapped.
-/

/-- What slots refer to, how often items are referred to, which items are free, which are
held, and how many references the running program has. -/
structure Store (ι ρ : Type) where
  ref : ι → Option ρ
  count : ρ → Nat
  free : List ρ
  held : Finset ρ
  own : ρ → Nat

namespace Store

variable {ι ρ : Type} [DecidableEq ρ]
variable {S : Finset ι} {avail : Finset ρ} {owns : ι → Prop} {M : Nat}

/-- The number of references to `p`. -/
def total (S : Finset ι) (st : Store ι ρ) (p : ρ) : Nat :=
  refCount S st.ref p + st.own p

/-- The counters count the references modulo `M`, the free items are those without a
reference and not held, and a slot that owns an item is the only one to refer to it. -/
structure Balanced (S : Finset ι) (avail : Finset ρ) (owns : ι → Prop) (M : Nat)
    (st : Store ι ρ) : Prop where
  counted : ∀ p ∈ avail, st.count p = st.total S p % M
  nodup : st.free.Nodup
  mem_free : ∀ p, p ∈ st.free ↔ p ∈ avail ∧ p ∉ st.held ∧ st.total S p = 0
  held_avail : ∀ p ∈ st.held, p ∈ avail
  held_total : ∀ p ∈ st.held, st.total S p = 0
  mem_slots : ∀ x p, st.ref x = some p → x ∈ S
  ref_avail : ∀ x p, st.ref x = some p → p ∈ avail
  own_avail : ∀ p, 0 < st.own p → p ∈ avail
  owned : ∀ x y p, owns x → st.ref x = some p → st.ref y = some p → y = x

/-- No slot owns `p`. -/
def Unowned (owns : ι → Prop) (st : Store ι ρ) (p : ρ) : Prop :=
  ∀ x, st.ref x = some p → ¬ owns x

/-- An item is shareable when it is held, or some slot that does not own it refers to it. -/
def Shareable (owns : ι → Prop) (st : Store ι ρ) (p : ρ) : Prop :=
  p ∈ st.held ∨ ∃ y, ¬ owns y ∧ st.ref y = some p

/-- Take the item `p`, with `l` the rest of the free list. -/
def take (st : Store ι ρ) (p : ρ) (l : List ρ) : Store ι ρ :=
  { st with free := l, held := insert p st.held }

/-- Give back the held item `p`. -/
def giveBack (st : Store ι ρ) (p : ρ) : Store ι ρ :=
  { st with free := p :: st.free, held := st.held.erase p }

/-- Count one more reference to `p`, which the program has. -/
def retain (M : Nat) (st : Store ι ρ) (p : ρ) : Store ι ρ :=
  { st with
    count := Function.update st.count p ((st.count p + 1) % M)
    held := st.held.erase p
    own := Function.update st.own p (st.own p + 1) }

/-- Count one reference less to `p`, which the program had, and free `p` if the counter
drops to zero. -/
def release (M : Nat) (st : Store ι ρ) (p : ρ) : Store ι ρ :=
  { st with
    count := Function.update st.count p ((st.count p + (M - 1)) % M)
    free := if (st.count p + (M - 1)) % M = 0 then p :: st.free else st.free
    own := Function.update st.own p (st.own p - 1) }

/-- Turn a reference the program has into a reference from the slot `x`. -/
def attach [DecidableEq ι] (st : Store ι ρ) (x : ι) (p : ρ) : Store ι ρ :=
  { st with
    ref := Function.update st.ref x (some p)
    own := Function.update st.own p (st.own p - 1) }

/-- Turn the reference from the slot `x` into a reference the program has. -/
def detach [DecidableEq ι] (st : Store ι ρ) (x : ι) (p : ρ) : Store ι ρ :=
  { st with
    ref := Function.update st.ref x none
    own := Function.update st.own p (st.own p + 1) }

variable {st : Store ι ρ} {x : ι} {p q : ρ}

/-! ### References in a balanced store -/

/-- What a slot refers to has a reference. -/
theorem Balanced.refCount_pos (h : st.Balanced S avail owns M) (hr : st.ref x = some p) :
  0 < refCount S st.ref p
  := by
  apply refCount.pos_iff.mpr
  use x, h.mem_slots x p hr

/-- What a slot refers to has a reference. -/
theorem Balanced.total_pos (h : st.Balanced S avail owns M) (hr : st.ref x = some p) :
  0 < st.total S p
  := by
  have := h.refCount_pos hr
  rw [total]
  omega

/-- An item without a reference is referred to by no slot. -/
theorem Balanced.ref_ne (h : st.Balanced S avail owns M) (hp : st.total S p = 0) (x : ι) :
  st.ref x ≠ some p
  := by
  intro hr
  have := h.total_pos hr
  omega

/-- What a slot refers to is not free. -/
theorem Balanced.not_free (h : st.Balanced S avail owns M) (hr : st.ref x = some p) :
  p ∉ st.free
  := by
  intro hp
  apply h.ref_ne ((h.mem_free p).mp hp).2.2 x hr

/-- A shareable item is available, not free, and owned by no slot. -/
theorem Balanced.shareable (h : st.Balanced S avail owns M) (hs : st.Shareable owns p) :
  p ∈ avail ∧ p ∉ st.free ∧ st.Unowned owns p
  := by
  obtain hh | ⟨y, hy, hr⟩ := hs
  · use h.held_avail p hh
    constructor
    · intro hp
      apply ((h.mem_free p).mp hp).2.1 hh
    · intro x hx
      apply (h.ref_ne (h.held_total p hh) x hx).elim
  · use h.ref_avail y p hr, h.not_free hr
    intro x hx ho
    obtain rfl := h.owned x y p ho hx hr
    apply hy ho

/-- An owned item has exactly one reference from a slot. -/
theorem Balanced.refCount_owned (h : st.Balanced S avail owns M) (ho : owns x)
    (hr : st.ref x = some p) :
  refCount S st.ref p = 1
  := by
  apply refCount.eq_one (h.mem_slots x p hr) hr
  intro y _ hy
  apply h.owned x y p ho hr hy

/-! ### Taking and giving back -/

/-- Taking the first free item keeps a store balanced. -/
theorem Balanced.take {l : List ρ} (h : st.Balanced S avail owns M) (hl : st.free = p :: l) :
  (st.take p l).Balanced S avail owns M
  := by
  have hp := (h.mem_free p).mp (by rw [hl]; apply List.mem_cons_self)
  have hnodup := h.nodup
  rw [hl, List.nodup_cons] at hnodup
  constructor
  case counted => apply h.counted
  case nodup => apply hnodup.2
  case mem_free =>
    intro q
    have hq := h.mem_free q
    rw [hl, List.mem_cons] at hq
    simp only [Store.take, Finset.mem_insert, not_or]
    constructor
    · intro hql
      obtain ⟨ha, hh, hc⟩ := hq.mp (Or.inr hql)
      use ha, ⟨fun he => hnodup.1 (he ▸ hql), hh⟩
      apply hc
    · rintro ⟨ha, ⟨hne, hh⟩, hc⟩
      apply (hq.mpr ⟨ha, hh, hc⟩).resolve_left hne
  case held_avail =>
    intro q hq
    obtain rfl | hq := Finset.mem_insert.mp hq
    · apply hp.1
    · apply h.held_avail q hq
  case held_total =>
    intro q hq
    obtain rfl | hq := Finset.mem_insert.mp hq
    · apply hp.2.2
    · apply h.held_total q hq
  case mem_slots => apply h.mem_slots
  case ref_avail => apply h.ref_avail
  case own_avail => apply h.own_avail
  case owned => apply h.owned

/-- Giving back a held item keeps a store balanced. -/
theorem Balanced.giveBack (h : st.Balanced S avail owns M) (hp : p ∈ st.held) :
  (st.giveBack p).Balanced S avail owns M
  := by
  constructor
  case counted => apply h.counted
  case nodup =>
    apply List.nodup_cons.mpr
    use fun hf => ((h.mem_free p).mp hf).2.1 hp
    apply h.nodup
  case mem_free =>
    intro q
    simp only [Store.giveBack, List.mem_cons, h.mem_free q, Finset.mem_erase, not_and_or, not_not]
    constructor
    · rintro (rfl | ⟨ha, hh, hc⟩)
      · use h.held_avail q hp, Or.inl rfl
        apply h.held_total q hp
      · use ha, Or.inr hh
        apply hc
    · rintro ⟨ha, hh, hc⟩
      obtain rfl | hh := hh
      · left; rfl
      · right; use ha, hh; apply hc
  case held_avail =>
    intro q hq
    apply h.held_avail q (Finset.mem_of_mem_erase hq)
  case held_total =>
    intro q hq
    apply h.held_total q (Finset.mem_of_mem_erase hq)
  case mem_slots => apply h.mem_slots
  case ref_avail => apply h.ref_avail
  case own_avail => apply h.own_avail
  case owned => apply h.owned

/-! ### Retaining and releasing -/

theorem total_retain (S : Finset ι) (M : Nat) (st : Store ι ρ) (p q : ρ) :
  (st.retain M p).total S q = st.total S q + (if q = p then 1 else 0)
  := by
  rw [total, total, retain]
  by_cases hqp : q = p
  · subst hqp
    simp only [Function.update_self, if_true]
    omega
  · simp only [Function.update_of_ne hqp, if_neg hqp]
    omega

theorem total_release (S : Finset ι) (M : Nat) {st : Store ι ρ} (hp : 0 < st.own p) (q : ρ) :
  (st.release M p).total S q + (if q = p then 1 else 0) = st.total S q
  := by
  rw [total, total, release]
  by_cases hqp : q = p
  · subst hqp
    simp only [Function.update_self, if_true]
    omega
  · simp only [Function.update_of_ne hqp, if_neg hqp]
    omega

/-- Retaining an item that is not free keeps a store balanced. -/
theorem Balanced.retain (h : st.Balanced S avail owns M) (hpa : p ∈ avail) (hpf : p ∉ st.free) :
  (st.retain M p).Balanced S avail owns M
  := by
  have htotal := total_retain S M st p
  constructor
  case counted =>
    intro q hq
    rw [htotal q]
    simp only [Store.retain]
    by_cases hqp : q = p
    · subst hqp
      rw [Function.update_self, if_pos rfl, h.counted q hq, Nat.mod_add_mod]
    · rw [Function.update_of_ne hqp, if_neg hqp, Nat.add_zero, h.counted q hq]
  case nodup => apply h.nodup
  case mem_free =>
    intro q
    rw [htotal q]
    simp only [Store.retain, h.mem_free q, Finset.mem_erase]
    by_cases hqp : q = p
    · subst hqp
      rw [h.mem_free q] at hpf
      simp only [if_true, Nat.add_eq_zero_iff, one_ne_zero, and_false, iff_false]
      apply hpf
    · simp [hqp]
  case held_avail =>
    intro q hq
    apply h.held_avail q (Finset.mem_of_mem_erase hq)
  case held_total =>
    intro q hq
    obtain ⟨hqp, hq⟩ := Finset.mem_erase.mp hq
    rw [htotal q, if_neg hqp, h.held_total q hq]
  case mem_slots => apply h.mem_slots
  case ref_avail => apply h.ref_avail
  case own_avail =>
    intro q hq
    by_cases hqp : q = p
    · rw [hqp]
      apply hpa
    · simp only [Store.retain, Function.update_of_ne hqp] at hq
      apply h.own_avail q hq
  case owned => apply h.owned

/-- Releasing a reference the program has keeps a store balanced. -/
theorem Balanced.release (h : st.Balanced S avail owns M) (hp : 0 < st.own p)
    (hM : st.total S p ≤ M) :
  (st.release M p).Balanced S avail owns M
  := by
  have hpa := h.own_avail p hp
  have htotal := total_release S M hp
  have htp := htotal p
  rw [if_pos rfl] at htp
  have hcnt : (st.count p + (M - 1)) % M = (st.release M p).total S p := by
    by_cases hfull : st.total S p = M
    · rw [h.counted p hpa, hfull, Nat.mod_self, Nat.mod_eq_of_lt (by omega)]
      omega
    · rw [h.counted p hpa, Nat.mod_eq_of_lt (a := st.total S p) (by omega), ← htp,
        show (st.release M p).total S p + 1 + (M - 1) = (st.release M p).total S p + M by omega,
        Nat.add_mod_right, Nat.mod_eq_of_lt (by omega)]
  have hne : ∀ q, q ≠ p → (st.release M p).total S q = st.total S q := by
    intro q hq
    have := htotal q
    rw [if_neg hq] at this
    apply this
  have hph : p ∉ st.held := by
    intro hh
    have := h.held_total p hh
    omega
  have hpf : p ∉ st.free := by
    intro hf
    have := ((h.mem_free p).mp hf).2.2
    omega
  constructor
  case counted =>
    intro q hq
    by_cases hqp : q = p
    · subst hqp
      rw [Nat.mod_eq_of_lt (by omega), ← hcnt]
      simp only [Store.release, Function.update_self]
    · rw [hne q hqp, ← h.counted q hq]
      simp only [Store.release, Function.update_of_ne hqp]
  case nodup =>
    simp only [Store.release]
    split
    case isTrue h0 =>
      apply List.nodup_cons.mpr
      use hpf
      apply h.nodup
    case isFalse h0 => apply h.nodup
  case mem_free =>
    intro q
    by_cases hqp : q = p
    · subst hqp
      rw [← hcnt]
      simp only [Store.release]
      split
      case isTrue h0 => simp [h0, hpa, hph]
      case isFalse h0 => simp [h0, hpf]
    · rw [hne q hqp]
      simp only [Store.release]
      split
      case isTrue h0 =>
        rw [List.mem_cons, h.mem_free q]
        simp [hqp]
      case isFalse h0 => apply h.mem_free q
  case held_avail => apply h.held_avail
  case held_total =>
    intro q hq
    rw [hne q (fun hqp => hph (hqp ▸ hq))]
    apply h.held_total q hq
  case mem_slots => apply h.mem_slots
  case ref_avail => apply h.ref_avail
  case own_avail =>
    intro q hq
    by_cases hqp : q = p
    · rw [hqp]
      apply hpa
    · simp only [Store.release, Function.update_of_ne hqp] at hq
      apply h.own_avail q hq
  case owned => apply h.owned

/-! ### Attaching and detaching -/

variable [DecidableEq ι]

theorem total_attach (hx : x ∈ S) (hr : st.ref x = none) (hp : 0 < st.own p) (q : ρ) :
  (st.attach x p).total S q = st.total S q
  := by
  have h := refCount.update st.ref (some p) q hx
  rw [hr] at h
  simp only [Option.some.injEq, reduceCtorEq, if_false, eq_comm (a := p)] at h
  simp only [total, attach]
  by_cases hqp : q = p
  · subst hqp
    rw [if_pos rfl] at h
    rw [Function.update_self]
    omega
  · rw [if_neg hqp] at h
    rw [Function.update_of_ne hqp]
    omega

theorem total_detach (hx : x ∈ S) (hr : st.ref x = some p) (q : ρ) :
  (st.detach x p).total S q = st.total S q
  := by
  have h := refCount.update st.ref none q hx
  rw [hr] at h
  simp only [Option.some.injEq, reduceCtorEq, if_false, eq_comm (a := p)] at h
  simp only [total, detach]
  by_cases hqp : q = p
  · subst hqp
    rw [if_pos rfl] at h
    rw [Function.update_self]
    omega
  · rw [if_neg hqp] at h
    rw [Function.update_of_ne hqp]
    omega

/-- Attaching an item that no slot owns to an empty slot keeps a store balanced, if no
slot refers to the item in case the slot owns it. -/
theorem Balanced.attach (h : st.Balanced S avail owns M) (hx : x ∈ S) (hr : st.ref x = none)
    (hp : 0 < st.own p) (hu : st.Unowned owns p) (ho : owns x → ∀ y, st.ref y ≠ some p) :
  (st.attach x p).Balanced S avail owns M
  := by
  have htotal := total_attach hx hr hp
  constructor
  case counted =>
    intro q hq
    rw [htotal q]
    apply h.counted q hq
  case nodup => apply h.nodup
  case mem_free =>
    intro q
    rw [htotal q]
    apply h.mem_free q
  case held_avail => apply h.held_avail
  case held_total =>
    intro q hq
    rw [htotal q]
    apply h.held_total q hq
  case mem_slots =>
    intro y q hy
    by_cases hyx : y = x
    · rw [hyx]
      apply hx
    · simp only [Store.attach, Function.update_of_ne hyx] at hy
      apply h.mem_slots y q hy
  case ref_avail =>
    intro y q hy
    by_cases hyx : y = x
    · simp only [Store.attach, hyx, Function.update_self] at hy
      obtain rfl := Option.some.inj hy
      apply h.own_avail p hp
    · simp only [Store.attach, Function.update_of_ne hyx] at hy
      apply h.ref_avail y q hy
  case own_avail =>
    intro q hq
    by_cases hqp : q = p
    · rw [hqp]
      apply h.own_avail p hp
    · simp only [Store.attach, Function.update_of_ne hqp] at hq
      apply h.own_avail q hq
  case owned =>
    intro y z q hoy hy hz
    simp only [Store.attach] at hy hz
    by_cases hyx : y = x
    · rw [hyx, Function.update_self] at hy
      obtain rfl := Option.some.inj hy
      by_cases hzx : z = x
      · rw [hzx, hyx]
      · rw [Function.update_of_ne hzx] at hz
        apply (ho (hyx ▸ hoy) z hz).elim
    · rw [Function.update_of_ne hyx] at hy
      by_cases hzx : z = x
      · rw [hzx, Function.update_self] at hz
        obtain rfl := Option.some.inj hz
        apply (hu y hy hoy).elim
      · rw [Function.update_of_ne hzx] at hz
        apply h.owned y z q hoy hy hz

/-- Detaching what a slot refers to keeps a store balanced. -/
theorem Balanced.detach (h : st.Balanced S avail owns M) (hr : st.ref x = some p) :
  (st.detach x p).Balanced S avail owns M
  := by
  have hx := h.mem_slots x p hr
  have hpa := h.ref_avail x p hr
  have htotal := total_detach hx hr
  have hrest : ∀ y q, (st.detach x p).ref y = some q → st.ref y = some q := by
    intro y q hy
    simp only [Store.detach] at hy
    by_cases hyx : y = x
    · rw [hyx, Function.update_self] at hy
      cases hy
    · rw [Function.update_of_ne hyx] at hy
      apply hy
  constructor
  case counted =>
    intro q hq
    rw [htotal q]
    apply h.counted q hq
  case nodup => apply h.nodup
  case mem_free =>
    intro q
    rw [htotal q]
    apply h.mem_free q
  case held_avail => apply h.held_avail
  case held_total =>
    intro q hq
    rw [htotal q]
    apply h.held_total q hq
  case mem_slots =>
    intro y q hy
    apply h.mem_slots y q (hrest y q hy)
  case ref_avail =>
    intro y q hy
    apply h.ref_avail y q (hrest y q hy)
  case own_avail =>
    intro q hq
    by_cases hqp : q = p
    · rw [hqp]
      apply hpa
    · simp only [Store.detach, Function.update_of_ne hqp] at hq
      apply h.own_avail q hq
  case owned =>
    intro y z q hoy hy hz
    apply h.owned y z q hoy (hrest y q hy) (hrest z q hz)

end Store
