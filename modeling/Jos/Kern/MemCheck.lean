import Jos.Kern.Guest
import Jos.Kern.UserCheck

/-!
# How exact the check of user memory is

`user_mem_check` is to find out whether an environment may access a range of addresses with
given permissions, and which address of the range is the first it may not access.  The check
looks at one entry of a page table after the other, with `pgdir_walk`, and stops at the first
it refuses.  What it refuses is not quite what it should: it takes an entry that has one of
the permissions for one that has them all.
-/

namespace Jos

open Bytes Prog

variable {s : Kernel} {pg : Nat} {perm va len : Word}

/-! ### What the check is for -/

namespace Kernel

/-- Whether an environment with the page directory `pg` may access the address `a` with the
permissions `perm`: the address is below `ULIM`, and its page table entry exists and contains
all of `perm | PTE_P`. -/
def MayAccess (s : Kernel) (pg : Nat) (perm : Word) (a : Nat) : Prop :=
  a < ULIM ∧ ∃ pt, refOf (s.entry pg (PDX (BitVec.ofNat 32 a))) = some pt
    ∧ s.entry pt (PTX (BitVec.ofNat 32 a)) &&& (perm ||| PTE_P) = perm ||| PTE_P

end Kernel

/-- The outcome `r` is that of an exact check of `[va, va + len)` for the permissions `perm`:
`0` if all of the range may be accessed, and else `-E_FAULT` with the first address that may
not be. -/
inductive Checked (s : Kernel) (pg : Nat) (va len perm : Word)
    (r : Except (Stop Kernel) (Word × Kernel)) : Prop where
  | passes (hall : ∀ i < len.toNat, s.MayAccess pg perm (va.toNat + i)) (h : r = .ok (0, s))
  | fails (i : Nat) (hi : i < len.toNat) (hbefore : ∀ j < i, s.MayAccess pg perm (va.toNat + j))
      (hno : ¬ s.MayAccess pg perm (va.toNat + i))
      (h : r = .ok (-E_FAULT, { s with userMemCheckAddr := va + BitVec.ofNat 32 i }))

/-- The addresses of a range that are reached one after the other are numbers of 32 bits. -/
theorem add_lt_of_mayAccess {i : Nat} (h : ∀ j < i, s.MayAccess pg perm (va.toNat + j)) :
  va.toNat + i < 2 ^ 32
  := by
  cases i with
  | zero => exact va.isLt
  | succ i =>
      have hlt := (h i (Nat.lt_succ_self i)).1
      simp only [ULIM, MMIOBASE, MMIOLIM, KSTACKTOP, KERNBASE, PTSIZE] at hlt
      omega

/-- An address of a range as a word. -/
theorem ofNat_add (va : Word) (i : Nat) :
  BitVec.ofNat 32 (va.toNat + i) = va + BitVec.ofNat 32 i
  := by
  rw [BitVec.ofNat_add, BitVec.ofNat_toNat, BitVec.setWidth_eq]

/-- Two addresses of a range that are the same word are at the same place in the range. -/
theorem add_ofNat_inj {i j : Nat} (hi : i < 2 ^ 32) (hj : j < 2 ^ 32)
    (h : va + BitVec.ofNat 32 i = va + BitVec.ofNat 32 j) :
  i = j
  := by
  have heq := congrArg BitVec.toNat ((BitVec.add_right_inj va).mp h)
  rw [BitVec.toNat_ofNat, BitVec.toNat_ofNat, Nat.mod_eq_of_lt hi, Nat.mod_eq_of_lt hj] at heq
  exact heq

/-- A check with the steps of `Judges` is exact about `M` if and only if, up to the first
address where `M` fails, it can walk the page table and accepts what `M` holds of. -/
theorem Verdict.exact_iff {n : Nat} {W A M : Nat → Prop} {addr : Nat → Word}
    {r : Except (Stop Kernel) (Option Word × Kernel)} (h : Verdict s n W A addr r)
    (hinj : ∀ i j, i < n → j < n → addr i = addr j → i = j) :
  Verdict s n (fun _ => True) M addr r ↔
    ∀ i < n, (∀ j < i, M j) → W i ∧ (A i ↔ M i)
  := by
  constructor
  · intro hexact i hi hM
    generalize hr : r = r' at hexact
    cases h with
    | accepted hall =>
        cases hexact with
        | accepted hmay => exact ⟨(hall i hi).1, iff_of_true (hall i hi).2 (hmay i hi).2⟩
        | refused => cases hr
        | stuck => cases hr
    | refused k hk hbefore hW hA =>
        cases hexact with
        | accepted => cases hr
        | refused k' hk' hbefore' _ hno =>
            -- the two agree on the address
            obtain rfl : k = k' := by
              apply hinj k k' hk hk'
              have heq := congrArg (Except.map (fun p => p.2.userMemCheckAddr)) hr
              exact Except.ok.inj heq
            obtain hik | rfl | hki := Nat.lt_trichotomy i k
            · exact ⟨(hbefore i hik).1, iff_of_true (hbefore i hik).2 (hbefore' i hik).2⟩
            · exact ⟨hW, iff_of_false hA hno⟩
            · exact (hno (hM k hki)).elim
        | stuck => cases hr
    | stuck k e hk hbefore hW =>
        cases hexact with
        | accepted => cases hr
        | refused => cases hr
        | stuck _ _ _ _ hno => exact (hno trivial).elim
  · intro hdec
    -- as far as entries are accepted, `M` holds
    have hM : ∀ k, k ≤ n → (∀ j < k, W j ∧ A j) → ∀ j < k, M j := by
      intro k hk hbefore j
      induction j using Nat.strong_induction_on with
      | _ j ih =>
          intro hj
          apply ((hdec j (by omega) _).2).mp (hbefore j hj).2
          intro j' hj'
          exact ih j' hj' (by omega)
    cases h with
    | accepted hall =>
        apply Verdict.accepted
        intro i hi
        exact ⟨trivial, hM n (Nat.le_refl n) hall i hi⟩
    | refused k hk hbefore hW hA =>
        have hMk := hM k (Nat.le_of_lt hk) hbefore
        apply Verdict.refused k hk (fun j hj => ⟨trivial, hMk j hj⟩) trivial
        intro hMay
        exact hA ((hdec k hk hMk).2.mpr hMay)
    | stuck k e hk hbefore hW =>
        exact (hW (hdec k hk (hM k (Nat.le_of_lt hk) hbefore)).1).elim

/-! ### The check of `Working/lab` -/

/-- The entry `pte` has none of the permissions `perm`, or it has all of them and is present.
With no permissions asked for it must not be present. -/
def NoneOrAll (pte perm : Word) : Prop :=
  if perm = 0 then pte &&& PTE_P = 0
  else pte &&& perm = 0 ∨ pte &&& (perm ||| PTE_P) = perm ||| PTE_P

/-- A word has the flag `PTE_P` or not. -/
theorem and_PTE_P_ne_zero (w : Word) :
  w &&& PTE_P ≠ 0 ↔ w &&& PTE_P = PTE_P
  := by
  constructor
  · intro h
    rw [← or_PTE_P h, BitVec.and_or_distrib_right]
    ext i hi
    simp only [BitVec.getElem_and, BitVec.getElem_or]
    cases PTE_P[i] with
    | false => simp only [Bool.and_false, Bool.or_false]
    | true => simp only [Bool.and_true, Bool.or_true]
  · intro h
    rw [h]
    decide

/-- On such an entry asking for one of the permissions is asking for all. -/
theorem noneOrAll_iff (pte perm : Word) :
  NoneOrAll pte perm ↔ (pte &&& perm ≠ 0 ↔ pte &&& (perm ||| PTE_P) = perm ||| PTE_P)
  := by
  by_cases h0 : perm = 0
  · have hzero : pte &&& (0 : Word) = 0 := BitVec.and_zero
    have hor : (0 : Word) ||| PTE_P = PTE_P := BitVec.zero_or
    rw [NoneOrAll, if_pos h0, h0, hzero, hor, ← and_PTE_P_ne_zero]
    simp
  · rw [NoneOrAll, if_neg h0]
    constructor
    · rintro (hnone | hall)
      · constructor
        · intro hne
          apply (hne hnone).elim
        · intro hall
          rw [and_of_and_or hall] at hnone
          apply (h0 hnone).elim
      · constructor
        · intro _
          apply hall
        · intro _
          rw [and_of_and_or hall]
          apply h0
    · intro hiff
      by_cases hnone : pte &&& perm = 0
      · left
        apply hnone
      · right
        apply hiff.mp hnone

namespace Kernel

/-- At every address of the range up to the first that may not be accessed, the page table is
in a page that exists, and the entry of an address below `ULIM` has none of the permissions or
all of them. -/
def Decided (s : Kernel) (pg : Nat) (va len perm : Word) : Prop :=
  ∀ i < len.toNat, (∀ j < i, s.MayAccess pg perm (va.toNat + j)) →
    ∀ pt, refOf (s.entry pg (PDX (va + BitVec.ofNat 32 i))) = some pt →
      pt < s.npages ∧ (va.toNat + i < ULIM →
        NoneOrAll (s.entry pt (PTX (va + BitVec.ofNat 32 i))) perm)

/-- On decided addresses the loop of `user_mem_check` accepts what may be accessed. -/
theorem decided_iff :
  s.Decided pg va len perm ↔
    ∀ i < len.toNat, (∀ j < i, s.MayAccess pg perm (va.toNat + j)) →
      s.Walkable pg (va + BitVec.ofNat 32 i) ∧ (s.Passes pg perm (va + BitVec.ofNat 32 i)
        ↔ s.MayAccess pg perm (va.toNat + i))
  := by
  apply forall_congr'
  intro i
  apply imp_congr_right
  intro _
  apply imp_congr_right
  intro hbefore
  have hlt := add_lt_of_mayAccess hbefore
  have hnat : (va + BitVec.ofNat 32 i).toNat = va.toNat + i := by
    rw [← ofNat_add, BitVec.toNat_ofNat, Nat.mod_eq_of_lt hlt]
  simp only [Walkable, Passes, MayAccess, hnat, ofNat_add]
  cases hpt : refOf (s.entry pg (PDX (va + BitVec.ofNat 32 i))) with
  | none => simp
  | some pt =>
      simp only [Option.some.injEq, forall_eq', exists_eq_left', noneOrAll_iff]
      constructor
      · rintro ⟨hpage, hdec⟩
        refine ⟨hpage, ?_⟩
        constructor
        · rintro ⟨hU, hone⟩
          exact ⟨hU, (hdec hU).mp hone⟩
        · rintro ⟨hU, hall⟩
          exact ⟨hU, (hdec hU).mpr hall⟩
      · rintro ⟨hpage, hacc⟩
        refine ⟨hpage, ?_⟩
        intro hU
        constructor
        · intro hone
          exact (hacc.mp ⟨hU, hone⟩).2
        · intro hall
          exact (hacc.mpr ⟨hU, hall⟩).2

end Kernel

/-- The check of a range is exact if and only if its search is. -/
theorem checked_iff_verdict {n : Nat} {body : Nat → Prog Kernel (Option Word)} {W A : Nat → Prop}
    {addr : Nat → Word} (h : Verdict s n W A addr (findUp 0 n body s)) (hn : n = len.toNat)
    (haddr : ∀ i, addr i = va + BitVec.ofNat 32 i) :
  Checked s pg va len perm ((findUp 0 n body >>= fun r => pure (r.getD 0)) s) ↔
    Verdict s n (fun _ => True) (fun i => s.MayAccess pg perm (va.toNat + i)) addr
      (findUp 0 n body s)
  := by
  subst hn
  generalize hr : findUp 0 len.toNat body s = r at h
  constructor
  · intro hchecked
    cases h with
    | accepted _ =>
        rw [bind_of_eq hr] at hchecked
        cases hchecked with
        | passes hmay _ => exact Verdict.accepted (fun i hi => ⟨trivial, hmay i hi⟩)
        | fails i hi hbefore hno heq => cases heq
    | refused k _ _ _ _ =>
        rw [bind_of_eq hr] at hchecked
        cases hchecked with
        | passes _ heq => cases heq
        | fails i hi hbefore hno heq =>
            obtain ⟨-, ht⟩ := Prod.mk.inj (Except.ok.inj heq)
            have ht' : ({ s with userMemCheckAddr := addr k } : Kernel)
                = { s with userMemCheckAddr := addr i } := by
              rw [haddr i]
              exact ht
            rw [ht']
            exact Verdict.refused i hi (fun j hj => ⟨trivial, hbefore j hj⟩) trivial hno
    | stuck _ e _ _ _ =>
        have herror : (findUp 0 len.toNat body >>= fun r => pure (r.getD 0)) s = .error e := by
          simp only [bind, StateT.bind, Except.bind, hr]
        rw [herror] at hchecked
        cases hchecked with
        | passes _ heq => cases heq
        | fails _ _ _ _ heq => cases heq
  · intro hexact
    cases hexact with
    | accepted hall =>
        rw [bind_of_eq hr]
        exact Checked.passes (fun i hi => (hall i hi).2) rfl
    | refused k hk hbefore _ hno =>
        rw [bind_of_eq hr]
        apply Checked.fails k hk (fun j hj => (hbefore j hj).2) hno
        rw [haddr k]
        rfl
    | stuck _ _ _ _ hno => exact (hno trivial).elim

/-- `user_mem_check` is exact if and only if it meets no entry that has some of the permissions
it is asked for and not all, before it finds an address that may not be accessed. -/
theorem userMemCheck_checked_iff (s : Kernel) (pg : Nat) (va len perm : Word) :
  Checked s pg va len perm (userMemCheck pg va len perm s) ↔ s.Decided pg va len perm
  := by
  have hlen : len.toNat < 2 ^ 32 := len.isLt
  have hverdict := (checkByte_judges s pg va perm len.toNat).verdict
  rw [userMemCheck, checked_iff_verdict hverdict rfl (fun _ => rfl), Kernel.decided_iff]
  apply hverdict.exact_iff
  intro i j hi hj heq
  exact add_ofNat_inj (by omega) (by omega) heq

/-- The words of a memory in which the directory in the page `1` maps every address to the page
`3`, which an environment may read and not write. -/
def readOnlyWord (p _ : Nat) : Word :=
  if p = 1 then page2pa 2 ||| PTE_P ||| PTE_U ||| PTE_W
  else if p = 2 then page2pa 3 ||| PTE_P ||| PTE_U
  else 0

/-- A kernel with this memory. -/
def readOnlyKernel : Kernel where
  mem := memOfWords readOnlyWord
  npages := 4
  kernPgdir := 0

/-- The check lets an environment write to a page that is mapped for reading. -/
theorem userMemCheck_readOnly :
  ¬ Checked readOnlyKernel 1 (BitVec.ofNat 32 UTEMP) 1 (PTE_U ||| PTE_P ||| PTE_W)
    (userMemCheck 1 (BitVec.ofNat 32 UTEMP) 1 (PTE_U ||| PTE_P ||| PTE_W) readOnlyKernel)
  := by
  obtain ⟨va, hva⟩ : ∃ va : Word, va = BitVec.ofNat 32 UTEMP + BitVec.ofNat 32 0 := ⟨_, rfl⟩
  have hpd : readOnlyKernel.entry 1 (PDX va) = page2pa 2 ||| PTE_P ||| PTE_U ||| PTE_W :=
    entry_memOfWords readOnlyWord (PDX_lt va) rfl
  have hpt : readOnlyKernel.entry 2 (PTX va) = page2pa 3 ||| PTE_P ||| PTE_U :=
    entry_memOfWords readOnlyWord (PTX_lt va) rfl
  have htable : refOf (readOnlyKernel.entry 1 (PDX va)) = some 2 := by
    rw [hpd]
    decide
  -- the entry has two of the three permissions
  have hstep : checkByte 1 (BitVec.ofNat 32 UTEMP) (PTE_U ||| PTE_P ||| PTE_W) 0 readOnlyKernel
      = .ok (none, readOnlyKernel) := by
    apply (checkByte_judges readOnlyKernel 1 _ _ 1).accepts 0 (by decide)
    · intro pt hpt'
      rw [← hva, htable] at hpt'
      cases hpt'
      decide
    · rw [← hva]
      refine ⟨2, htable, ?_, ?_⟩
      · rw [hva]
        decide
      · rw [hpt]
        decide
  have hrun : userMemCheck 1 (BitVec.ofNat 32 UTEMP) 1 (PTE_U ||| PTE_P ||| PTE_W) readOnlyKernel
      = .ok (0, readOnlyKernel) := by
    rw [userMemCheck]
    have hloop : findUp 0 1 (checkByte 1 (BitVec.ofNat 32 UTEMP) (PTE_U ||| PTE_P ||| PTE_W))
        readOnlyKernel = .ok (none, readOnlyKernel) := by
      rw [findUp, bind_of_eq hstep]
      rfl
    exact bind_of_eq hloop
  rw [hrun]
  intro hchecked
  cases hchecked with
  | passes hall _ =>
      obtain ⟨-, pt, hpt', hflags⟩ := hall 0 (by decide)
      rw [ofNat_add, ← hva] at hpt' hflags
      rw [htable] at hpt'
      cases hpt'
      rw [hpt] at hflags
      revert hflags
      decide
  | fails _ _ _ _ h => cases h

end Jos
