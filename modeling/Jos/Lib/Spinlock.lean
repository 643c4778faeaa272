import Mathlib.Logic.Function.Basic
import Mathlib.Tactic.Common

/-!
# Spin locks

A lock that any number of threads take by exchanging a flag, and that records which of them
holds it.  To take the lock is two steps, and so is to give it back: the flag is exchanged
and the holder recorded, or the record is cleared and the flag exchanged.  Every thread is in
some phase of this, and at most one thread is not outside of the lock.
-/

/-- Mutual exclusion lock. -/
structure Spinlock (T : Type) where
  /-- Is the lock held? -/
  locked : Bool := false
  /-- The thread holding the lock. -/
  cpu : Option T := none

/-- How far a thread is with taking a lock and giving it back. -/
inductive Spinlock.Phase where
  | outside
  | taken
  | inside
  | cleared
  deriving DecidableEq

namespace Spinlock

variable {T : Type} {lk : Spinlock T} {phase : T → Phase} {c : T}

/-- What the lock says of the phases of all threads. -/
structure Owned (lk : Spinlock T) (phase : T → Phase) : Prop where
  one : ∀ c c', phase c ≠ .outside → phase c' ≠ .outside → c = c'
  locked : lk.locked = true ↔ ∃ c, phase c ≠ .outside
  cpu : ∀ c, lk.cpu = some c ↔ phase c = .inside

/-! ### Reading the lock -/

/-- Nobody is beyond the flag of a free lock. -/
theorem Owned.outside (h : Owned lk phase) (hfree : lk.locked = false) (c : T) :
  phase c = .outside
  := by
  by_contra hc
  have hlocked := h.locked.mpr ⟨c, hc⟩
  rw [hfree] at hlocked
  cases hlocked

/-- Next to a thread that is not outside all others are. -/
theorem Owned.others (h : Owned lk phase) (hc : phase c ≠ .outside) {c' : T} (hne : c' ≠ c) :
  phase c' = .outside
  := by
  by_contra hc'
  exact hne (h.one c' c hc' hc)

variable [DecidableEq T]

/-- Check whether the thread `c` is holding the lock. -/
def holding (lk : Spinlock T) (c : T) : Bool :=
  lk.locked && lk.cpu == some c

/-- The lock is held by whoever is inside. -/
theorem Owned.holding_iff (h : Owned lk phase) (c : T) :
  lk.holding c = true ↔ phase c = .inside
  := by
  rw [holding, Bool.and_eq_true, beq_iff_eq, h.cpu]
  constructor
  · exact fun hc => hc.2
  · intro hc
    constructor
    · apply h.locked.mpr
      use c
      rw [hc]
      simp
    · exact hc

theorem Owned.not_holding (h : Owned lk phase) (hc : phase c ≠ .inside) :
  lk.holding c = false
  := by
  rw [← Bool.not_eq_true, h.holding_iff]
  exact hc

/-! ### Changing the lock -/

/-- The phases with one thread in a new one. -/
theorem owned_update {lk' : Spinlock T} {p : Phase} (h : ∀ c', c' ≠ c → phase c' = .outside)
    (hlocked : lk'.locked = true ↔ p ≠ .outside) (hcpu : lk'.cpu = if p = .inside then some c else none) :
  Owned lk' (Function.update phase c p)
  := by
  have hout : ∀ c', Function.update phase c p c' ≠ .outside → c' = c := by
    intro c' hc'
    by_contra hne
    rw [Function.update_of_ne hne] at hc'
    exact hc' (h c' hne)
  constructor
  · intro c1 c2 h1 h2
    rw [hout c1 h1, hout c2 h2]
  · rw [hlocked]
    constructor
    · intro hp
      use c
      rwa [Function.update_self]
    · rintro ⟨c', hc'⟩
      have hself := hout c' hc'
      rwa [hself, Function.update_self] at hc'
  · intro c'
    rw [hcpu]
    by_cases hne : c' = c
    · rw [hne, Function.update_self]
      split <;> simp_all
    · rw [Function.update_of_ne hne, h c' hne]
      split <;> simp [Ne.symm hne]

/-- The flag is exchanged, and the lock was free. -/
theorem Owned.take (h : Owned lk phase) (hfree : lk.locked = false) :
  Owned { lk with locked := true } (Function.update phase c .taken)
  := by
  apply owned_update
  · exact fun c' _ => h.outside hfree c'
  · simp
  · rw [if_neg (by simp)]
    apply Option.eq_none_iff_forall_ne_some.mpr
    intro c' hc'
    have hin := (h.cpu c').mp hc'
    rw [h.outside hfree] at hin
    cases hin

/-- The holder is recorded. -/
theorem Owned.record (h : Owned lk phase) (hc : phase c = .taken) :
  Owned { lk with cpu := some c } (Function.update phase c .inside)
  := by
  have hne : phase c ≠ .outside := by
    rw [hc]
    simp
  apply owned_update
  · exact fun c' hc' => h.others hne hc'
  · simpa using h.locked.mpr ⟨c, hne⟩
  · rfl

/-- The record of the holder is cleared. -/
theorem Owned.clear (h : Owned lk phase) (hc : phase c = .inside) :
  Owned { lk with cpu := none } (Function.update phase c .cleared)
  := by
  have hne : phase c ≠ .outside := by
    rw [hc]
    simp
  apply owned_update
  · exact fun c' hc' => h.others hne hc'
  · simpa using h.locked.mpr ⟨c, hne⟩
  · rfl

/-- The flag is exchanged back. -/
theorem Owned.release (h : Owned lk phase) (hc : phase c = .cleared) :
  Owned { lk with locked := false } (Function.update phase c .outside)
  := by
  have hne : phase c ≠ .outside := by
    rw [hc]
    simp
  apply owned_update
  · exact fun c' hc' => h.others hne hc'
  · simp
  · rw [if_neg (by simp)]
    apply Option.eq_none_iff_forall_ne_some.mpr
    intro c' hc'
    have hin := (h.cpu c').mp hc'
    have heq : c' = c := h.one c' c (by rw [hin]; simp) hne
    rw [heq, hc] at hin
    cases hin

end Spinlock
