import Jos.Kern.Machine
import Jos.Kern.UserCheck

/-!
# Delivering page faults

A page fault of an environment is delivered to its upcall with a frame on its exception
stack, or the environment is destroyed.  `user_mem_assert` only makes sure that the page
table entry of the exception stack has one of three flags, so that the kernel may fault
while it writes the frame, or write it to a page the environment may not write to.  For
all other page tables delivery is safe, and an environment is destroyed only if the fault
can not be delivered.
-/

namespace Jos

open Bytes Prog

variable {avail held : Finset Nat} {own : Nat → Nat} {s s' : Kernel}

/-! ### The exception stack -/

/-- The lowest address of the exception stack. -/
def excStack : Word :=
  BitVec.ofNat 32 (UXSTACKTOP - PGSIZE)

/-- Whether the stack pointer is on the exception stack, or in the guard page below, and
there is no room below it for the scratch word and the frame. -/
def NoRoom (esp : Word) : Prop :=
  USTACKTOP ≤ esp.toNat ∧ esp.toNat < UXSTACKTOP - PGSIZE + 4 + UTrapframe.size

instance (esp : Word) : Decidable (NoRoom esp) :=
  inferInstanceAs (Decidable (_ ∧ _))

/-- Where the frame is pushed. -/
def frameVa (esp : Word) : Word :=
  faultStack esp - BitVec.ofNat 32 UTrapframe.size

/-- The frame lies on the exception stack when there is room. -/
theorem frameVa_inside {esp : Word} (h : ¬ NoRoom esp) :
  UXSTACKTOP - PGSIZE ≤ (frameVa esp).toNat ∧ (frameVa esp).toNat + UTrapframe.size ≤ UXSTACKTOP
  := by
  have hlt := esp.isLt
  have hfour : BitVec.toNat (4 : Word) = 4 := rfl
  unfold NoRoom at h
  unfold frameVa faultStack
  split
  case isTrue hon =>
    rw [BitVec.toNat_sub, BitVec.toNat_sub]
    simp only [UXSTACKTOP, USTACKTOP, UTOP, UENVS, UPAGES, UVPT, ULIM, MMIOBASE, MMIOLIM,
      KSTACKTOP, KERNBASE, PTSIZE, PGSIZE, UTrapframe.size, BitVec.toNat_ofNat] at h hon ⊢
    omega
  case isFalse hoff =>
    rw [BitVec.toNat_sub]
    simp only [UXSTACKTOP, USTACKTOP, UTOP, UENVS, UPAGES, UVPT, ULIM, MMIOBASE, MMIOLIM,
      KSTACKTOP, KERNBASE, PTSIZE, PGSIZE, UTrapframe.size, BitVec.toNat_ofNat] at h hoff ⊢
    omega

/-- The decisions the handler makes about the stack pointer. -/
theorem noRoom_iff (esp : Word) :
  NoRoom esp ↔ ¬ (esp.toNat ≥ UXSTACKTOP - PGSIZE ∨ esp.toNat < USTACKTOP) ∨
    ((esp.toNat ≥ UXSTACKTOP - PGSIZE ∨ esp.toNat < USTACKTOP)
      ∧ (frameVa esp).toNat < UXSTACKTOP - PGSIZE)
  := by
  have hlt := esp.isLt
  have hfour : BitVec.toNat (4 : Word) = 4 := rfl
  unfold NoRoom frameVa faultStack
  split
  case isTrue hon =>
    rw [BitVec.toNat_sub, BitVec.toNat_sub]
    simp only [UXSTACKTOP, USTACKTOP, UTOP, UENVS, UPAGES, UVPT, ULIM, MMIOBASE, MMIOLIM,
      KSTACKTOP, KERNBASE, PTSIZE, PGSIZE, UTrapframe.size, BitVec.toNat_ofNat] at hon ⊢
    omega
  case isFalse hoff =>
    rw [BitVec.toNat_sub]
    simp only [UXSTACKTOP, USTACKTOP, UTOP, UENVS, UPAGES, UVPT, ULIM, MMIOBASE, MMIOLIM,
      KSTACKTOP, KERNBASE, PTSIZE, PGSIZE, UTrapframe.size, BitVec.toNat_ofNat] at hoff ⊢
    omega

end Jos
