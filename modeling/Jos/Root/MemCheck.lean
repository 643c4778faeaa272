import Jos.Kern.MemCheck
import Jos.Root.Mapping

/-!
# How exact the check of user memory is, page by page

The kernel at the root checks a range of user memory with one step for each page.  A step asks
for all the permissions, so that it accepts exactly the pages that may be accessed.  Which
pages are checked is computed with 32 bits: for a range that ends in the last page of the
address space or goes on past it, the rounded end is below the start, and hardly a page is
checked.
-/

namespace Jos

open Bytes Prog

variable {s : Kernel} {pg : Nat} {perm va len : Word}

/-! ### Addresses of one page -/

/-- Whether an address may be accessed depends on its page only. -/
theorem Kernel.mayAccess_congr {a b : Nat} (h : a / PGSIZE = b / PGSIZE) :
  s.MayAccess pg perm a ↔ s.MayAccess pg perm b
  := by
  have hdir : PDX (BitVec.ofNat 32 a) = PDX (BitVec.ofNat 32 b) := by
    rw [PDX_eq, PDX_eq, BitVec.toNat_ofNat, BitVec.toNat_ofNat]
    simp only [PGSIZE] at h
    omega
  have htab : PTX (BitVec.ofNat 32 a) = PTX (BitVec.ofNat 32 b) := by
    rw [PTX_eq, PTX_eq, BitVec.toNat_ofNat, BitVec.toNat_ofNat]
    simp only [PGSIZE] at h
    omega
  have hlim : a < ULIM ↔ b < ULIM := by
    simp only [PGSIZE] at h
    simp only [ULIM, MMIOBASE, MMIOLIM, KSTACKTOP, KERNBASE, PTSIZE]
    omega
  rw [MayAccess, MayAccess, hdir, htab, hlim]

/-- Whether the page table of an address can be walked depends on its page only. -/
theorem Kernel.walkable_congr {a b : Word} (h : a.toNat / PGSIZE = b.toNat / PGSIZE) :
  s.Walkable pg a ↔ s.Walkable pg b
  := by
  have hdir : PDX a = PDX b := by
    rw [PDX_eq, PDX_eq]
    simp only [PGSIZE] at h
    omega
  rw [Walkable, Walkable, hdir]

namespace Root

/-! ### The pages that are checked -/

/-- The start of the last page of the address space. -/
def lastPage : Nat := 2 ^ 32 - PGSIZE

/-- How many pages the loop of `user_mem_check` looks at. -/
def pagesChecked (va len : Word) : Nat :=
  (ROUNDUP (va + len).toNat PGSIZE - ROUNDDOWN va.toNat PGSIZE) / PGSIZE

/-- An empty range is not looked at if it starts at a page or in the last page. -/
theorem pagesChecked_zero (hlen : len.toNat = 0)
    (h : va.toNat % PGSIZE = 0 ∨ lastPage < va.toNat) :
  pagesChecked va len = 0
  := by
  have hva := va.isLt
  simp only [pagesChecked, ROUNDUP, ROUNDDOWN, BitVec.toNat_add, PGSIZE, lastPage] at h ⊢
  omega

/-- A range that ends below the last page is checked as a whole. -/
theorem pagesChecked_below (h : va.toNat + len.toNat ≤ lastPage) :
  pagesChecked va len = (va.toNat % PGSIZE + len.toNat + (PGSIZE - 1)) / PGSIZE
  := by
  have hva := va.isLt
  simp only [pagesChecked, ROUNDUP, ROUNDDOWN, BitVec.toNat_add, PGSIZE, lastPage] at h ⊢
  omega

/-- A range that reaches the last page is not looked at, unless it goes round to its own
page. -/
theorem pagesChecked_above (h : lastPage < va.toNat + len.toNat)
    (hround : va.toNat + len.toNat ≤ 2 ^ 32 + ROUNDDOWN va.toNat PGSIZE
      ∨ lastPage ≤ va.toNat) :
  pagesChecked va len = 0
  := by
  have hva := va.isLt
  have hlen := len.isLt
  simp only [pagesChecked, ROUNDUP, ROUNDDOWN, BitVec.toNat_add, PGSIZE, lastPage] at h hround ⊢
  omega

/-- Of a range that goes round to its own page this page is checked. -/
theorem pagesChecked_round (h : 2 ^ 32 + ROUNDDOWN va.toNat PGSIZE < va.toNat + len.toNat)
    (hlast : va.toNat < lastPage) :
  pagesChecked va len = 1
  := by
  have hva := va.isLt
  have hlen := len.isLt
  simp only [pagesChecked, ROUNDUP, ROUNDDOWN, BitVec.toNat_add, PGSIZE, lastPage] at h hlast ⊢
  omega

/-- The loop of `user_mem_check` goes on at a page that may be accessed, and reports the first
address of the range in one that may not be. -/
theorem checkPage_judges (s : Kernel) (pg : Nat) (va perm : Word) (first n : Nat) :
  Judges s n (fun i => checkPage pg va (perm ||| PTE_P) (first + i * PGSIZE))
    (fun i => s.Walkable pg (BitVec.ofNat 32 (first + i * PGSIZE)))
    (fun i => s.MayAccess pg perm (first + i * PGSIZE))
    (fun i => if first + i * PGSIZE < va.toNat then va else BitVec.ofNat 32 (first + i * PGSIZE))
  := by
  constructor
  case stuck =>
    intro i _ hwalk
    obtain ⟨e, he⟩ := pgdirWalk_stuck hwalk
    use e
    rw [checkPage, pgdirWalk_eq]
    simp only [bind, StateT.bind, Except.bind, he]
  case accepts =>
    intro i _ hwalk hmay
    obtain ⟨hlt, pt, hpt, hpte⟩ := hmay
    rw [checkPage, pgdirWalk_eq, bind_of_eq (pgdirWalk_walkable hwalk), get_bind, hpt]
    simp only [Option.map_some]
    rw [if_neg]
    · rfl
    · simp [Nat.not_le_of_lt hlt, hpte]
  case refuses =>
    intro i _ hwalk hno
    rw [checkPage, pgdirWalk_eq, bind_of_eq (pgdirWalk_walkable hwalk), get_bind]
    cases hpt : refOf (s.entry pg (PDX (BitVec.ofNat 32 (first + i * PGSIZE)))) with
    | none => rfl
    | some pt =>
        simp only [Option.map_some]
        rw [if_pos]
        · rfl
        · simp only [ge_iff_le, Bool.or_eq_true, decide_eq_true_eq]
          by_contra hor
          rw [not_or, not_not] at hor
          exact hno ⟨Nat.lt_of_not_le hor.1, pt, hpt, hor.2⟩

/-- How the check of a range ends. -/
theorem userMemCheck_verdict (s : Kernel) (pg : Nat) (va len perm : Word) :
  ∃ r, Verdict s (pagesChecked va len)
      (fun i => s.Walkable pg (BitVec.ofNat 32 (ROUNDDOWN va.toNat PGSIZE + i * PGSIZE)))
      (fun i => s.MayAccess pg perm (ROUNDDOWN va.toNat PGSIZE + i * PGSIZE))
      (fun i => if ROUNDDOWN va.toNat PGSIZE + i * PGSIZE < va.toNat then va
        else BitVec.ofNat 32 (ROUNDDOWN va.toNat PGSIZE + i * PGSIZE)) r
    ∧ userMemCheck pg va len perm s = r.map (fun p => (p.1.getD 0, p.2))
  := by
  use findUp 0 (pagesChecked va len)
    (fun i => checkPage pg va (perm ||| PTE_P) (ROUNDDOWN va.toNat PGSIZE + i * PGSIZE)) s
  constructor
  · apply Judges.verdict
    apply checkPage_judges
  · rw [userMemCheck]
    simp only [bind, StateT.bind, Except.bind, pagesChecked]
    generalize findUp 0 _ _ s = r
    cases r with
    | error e => rfl
    | ok p => rfl

/-- The first page that is checked is the one with the start of the range. -/
theorem mayAccess_first :
  s.MayAccess pg perm (ROUNDDOWN va.toNat PGSIZE + 0 * PGSIZE) ↔ s.MayAccess pg perm va.toNat
  := by
  apply Kernel.mayAccess_congr
  simp only [ROUNDDOWN, PGSIZE]
  omega

theorem walkable_first :
  s.Walkable pg (BitVec.ofNat 32 (ROUNDDOWN va.toNat PGSIZE + 0 * PGSIZE)) ↔ s.Walkable pg va
  := by
  apply Kernel.walkable_congr
  have hva := va.isLt
  rw [BitVec.toNat_ofNat]
  simp only [ROUNDDOWN, PGSIZE]
  omega

/-! ### Ranges for which the check is exact -/

end Root

/-- The inputs for which the check is exact.  An empty range starts at a page or above the start
of the last one, or is in a page that may be accessed.  A range that ends below the last page
has its page tables in pages that exist, up to the first address that may not be accessed.  Any
other range goes round to its own page, which may not be accessed. -/
def Kernel.PagesDecided (s : Kernel) (pg : Nat) (va len perm : Word) : Prop :=
  if len.toNat = 0 then
    va.toNat % PGSIZE = 0 ∨ Root.lastPage < va.toNat
      ∨ (s.Walkable pg va ∧ s.MayAccess pg perm va.toNat)
  else if va.toNat + len.toNat ≤ Root.lastPage then
    ∀ i < len.toNat, (∀ j < i, s.MayAccess pg perm (va.toNat + j)) →
      s.Walkable pg (va + BitVec.ofNat 32 i)
  else
    2 ^ 32 + Root.ROUNDDOWN va.toNat PGSIZE < va.toNat + len.toNat ∧ va.toNat < Root.lastPage
      ∧ s.Walkable pg va ∧ ¬ s.MayAccess pg perm va.toNat

namespace Root

/-- A range that reaches the last page may not be accessed. -/
theorem exists_not_mayAccess (hlen : len.toNat ≠ 0) (h : lastPage < va.toNat + len.toNat) :
  ∃ i < len.toNat, ¬ s.MayAccess pg perm (va.toNat + i)
  := by
  use len.toNat - 1
  constructor
  · omega
  · intro hmay
    have hlt := hmay.1
    simp only [ULIM, MMIOBASE, MMIOLIM, KSTACKTOP, KERNBASE, PTSIZE] at hlt
    simp only [lastPage, PGSIZE] at h
    omega

/-- Where no page is checked the check should have nothing to find. -/
theorem checked_of_pages_zero (h : pagesChecked va len = 0) :
  Checked s pg va len perm (userMemCheck pg va len perm s) ↔
    ∀ i < len.toNat, s.MayAccess pg perm (va.toNat + i)
  := by
  obtain ⟨r, hverdict, hrun⟩ := userMemCheck_verdict s pg va len perm
  rw [h] at hverdict
  rw [hrun]
  cases hverdict with
  | accepted _ =>
      constructor
      · intro hchecked
        cases hchecked with
        | passes hall _ => exact hall
        | fails _ _ _ _ heq => cases heq
      · intro hall
        exact Checked.passes hall rfl
  | refused i hi _ _ _ => exact (Nat.not_lt_zero i hi).elim
  | stuck i _ hi _ _ => exact (Nat.not_lt_zero i hi).elim

/-- Where one page is checked, the check is right about the page if it can walk to it. -/
theorem userMemCheck_of_pages_one (h : pagesChecked va len = 1) :
  (s.Walkable pg va ∧ s.MayAccess pg perm va.toNat
    ∧ userMemCheck pg va len perm s = .ok (0, s)) ∨
  (s.Walkable pg va ∧ ¬ s.MayAccess pg perm va.toNat
    ∧ userMemCheck pg va len perm s = .ok (-E_FAULT, { s with userMemCheckAddr := va })) ∨
  (¬ s.Walkable pg va ∧ ∃ e, userMemCheck pg va len perm s = .error e)
  := by
  obtain ⟨r, hverdict, hrun⟩ := userMemCheck_verdict s pg va len perm
  rw [h] at hverdict
  rw [hrun]
  cases hverdict with
  | accepted hall =>
      left
      obtain ⟨hW, hA⟩ := hall 0 Nat.zero_lt_one
      exact ⟨walkable_first.mp hW, mayAccess_first.mp hA, rfl⟩
  | refused i hi _ hW hA =>
      obtain rfl := Nat.lt_one_iff.mp hi
      right
      left
      refine ⟨walkable_first.mp hW, fun hmay => hA (mayAccess_first.mpr hmay), ?_⟩
      -- the address is that of the start of the range
      have haddr : (if ROUNDDOWN va.toNat PGSIZE + 0 * PGSIZE < va.toNat then va
          else BitVec.ofNat 32 (ROUNDDOWN va.toNat PGSIZE + 0 * PGSIZE)) = va := by
        by_cases hlt : ROUNDDOWN va.toNat PGSIZE + 0 * PGSIZE < va.toNat
        · rw [if_pos hlt]
        · rw [if_neg hlt]
          apply BitVec.eq_of_toNat_eq
          have hva := va.isLt
          rw [BitVec.toNat_ofNat]
          simp only [ROUNDDOWN, PGSIZE] at hlt ⊢
          omega
      rw [haddr]
      rfl
  | stuck i e hi _ hW =>
      obtain rfl := Nat.lt_one_iff.mp hi
      right
      right
      exact ⟨fun hwalk => hW (walkable_first.mpr hwalk), e, rfl⟩

/-- The page with the `i`-th address of a range, counted from the first page. -/
def pageOf (va : Word) (i : Nat) : Nat :=
  (va.toNat % PGSIZE + i) / PGSIZE

/-- The first address of a range in the `k`-th page. -/
def startIn (va : Word) (k : Nat) : Nat :=
  k * PGSIZE - va.toNat % PGSIZE

theorem mayAccess_pageOf (i : Nat) :
  s.MayAccess pg perm (ROUNDDOWN va.toNat PGSIZE + pageOf va i * PGSIZE)
    ↔ s.MayAccess pg perm (va.toNat + i)
  := by
  apply Kernel.mayAccess_congr
  simp only [ROUNDDOWN, pageOf, PGSIZE]
  omega

theorem walkable_pageOf (i : Nat) :
  s.Walkable pg (BitVec.ofNat 32 (ROUNDDOWN va.toNat PGSIZE + pageOf va i * PGSIZE))
    ↔ s.Walkable pg (va + BitVec.ofNat 32 i)
  := by
  apply Kernel.walkable_congr
  rw [← ofNat_add, BitVec.toNat_ofNat, BitVec.toNat_ofNat]
  simp only [ROUNDDOWN, pageOf, PGSIZE]
  omega

theorem pageOf_startIn (va : Word) (k : Nat) :
  pageOf va (startIn va k) = k
  := by
  simp only [pageOf, startIn, PGSIZE]
  omega

theorem pageOf_lt_of_lt_startIn {k j : Nat} (h : j < startIn va k) :
  pageOf va j < k
  := by
  simp only [startIn, PGSIZE] at h
  simp only [pageOf, PGSIZE]
  omega

theorem pageOf_le_of_le_startIn {k i : Nat} (h : i ≤ startIn va k) :
  pageOf va i ≤ k
  := by
  simp only [startIn, PGSIZE] at h
  simp only [pageOf, PGSIZE]
  omega

/-- The address that is reported for the `k`-th page. -/
theorem addr_startIn (k : Nat) :
  (if ROUNDDOWN va.toNat PGSIZE + k * PGSIZE < va.toNat then va
    else BitVec.ofNat 32 (ROUNDDOWN va.toNat PGSIZE + k * PGSIZE))
    = va + BitVec.ofNat 32 (startIn va k)
  := by
  by_cases hlt : ROUNDDOWN va.toNat PGSIZE + k * PGSIZE < va.toNat
  · have hzero : startIn va k = 0 := by
      simp only [ROUNDDOWN, PGSIZE] at hlt
      simp only [startIn, PGSIZE]
      omega
    rw [if_pos hlt, hzero]
    simp
  · rw [if_neg hlt, ← ofNat_add]
    congr 1
    simp only [ROUNDDOWN, PGSIZE] at hlt
    simp only [ROUNDDOWN, startIn, PGSIZE]
    omega

/-- A range that ends below the last page is checked from page to page. -/
theorem checked_of_below (hlen : len.toNat ≠ 0) (h : va.toNat + len.toNat ≤ lastPage) :
  Checked s pg va len perm (userMemCheck pg va len perm s) ↔
    ∀ i < len.toNat, (∀ j < i, s.MayAccess pg perm (va.toNat + j)) →
      s.Walkable pg (va + BitVec.ofNat 32 i)
  := by
  have hsmall : va.toNat + len.toNat < 2 ^ 32 := by
    simp only [lastPage, PGSIZE] at h
    omega
  have hpage : ∀ i < len.toNat, pageOf va i < pagesChecked va len := by
    intro i hi
    rw [pagesChecked_below h]
    simp only [pageOf, PGSIZE]
    omega
  have hstart : ∀ k < pagesChecked va len, startIn va k < len.toNat := by
    intro k hk
    rw [pagesChecked_below h] at hk
    simp only [PGSIZE] at hk
    simp only [startIn, PGSIZE]
    omega
  obtain ⟨r, hverdict, hrun⟩ := userMemCheck_verdict s pg va len perm
  rw [hrun]
  cases hverdict with
  | accepted hall =>
      apply iff_of_true
      · apply Checked.passes _ rfl
        intro i hi
        exact (mayAccess_pageOf i).mp (hall _ (hpage i hi)).2
      · intro i hi _
        exact (walkable_pageOf i).mp (hall _ (hpage i hi)).1
  | refused k hk hbefore hW hA =>
      have hk' := hstart k hk
      have hmay : ∀ j < startIn va k, s.MayAccess pg perm (va.toNat + j) := by
        intro j hj
        exact (mayAccess_pageOf j).mp (hbefore _ (pageOf_lt_of_lt_startIn hj)).2
      have hno : ¬ s.MayAccess pg perm (va.toNat + startIn va k) := by
        rw [← mayAccess_pageOf, pageOf_startIn]
        exact hA
      apply iff_of_true
      · apply Checked.fails (startIn va k) hk' hmay hno
        rw [← addr_startIn]
        rfl
      · intro i hi hbefore'
        rw [← walkable_pageOf]
        have hle : i ≤ startIn va k := by
          apply Nat.le_of_not_lt
          intro hlt
          exact hno (hbefore' _ hlt)
        obtain hlt | heq := Nat.lt_or_eq_of_le (pageOf_le_of_le_startIn hle)
        · exact (hbefore _ hlt).1
        · rw [heq]
          exact hW
  | stuck k e hk hbefore hW =>
      have hk' := hstart k hk
      apply iff_of_false
      · intro hchecked
        cases hchecked with
        | passes _ heq => cases heq
        | fails _ _ _ _ heq => cases heq
      · intro hwalk
        apply hW
        have hmay : ∀ j < startIn va k, s.MayAccess pg perm (va.toNat + j) := by
          intro j hj
          exact (mayAccess_pageOf j).mp (hbefore _ (pageOf_lt_of_lt_startIn hj)).2
        have hstop := (walkable_pageOf _).mpr (hwalk _ hk' hmay)
        rw [pageOf_startIn] at hstop
        exact hstop

/-- `user_mem_check` is exact for the inputs of `PagesDecided` and for no others. -/
theorem userMemCheck_pages_iff (s : Kernel) (pg : Nat) (va len perm : Word) :
  Checked s pg va len perm (userMemCheck pg va len perm s) ↔ s.PagesDecided pg va len perm
  := by
  rw [Kernel.PagesDecided]
  by_cases hlen : len.toNat = 0
  · rw [if_pos hlen]
    by_cases hnone : va.toNat % PGSIZE = 0 ∨ lastPage < va.toNat
    · rw [checked_of_pages_zero (pagesChecked_zero hlen hnone)]
      apply iff_of_true
      · intro i hi
        omega
      · rw [← or_assoc]
        exact Or.inl hnone
    · -- the page of the empty range is looked at
      have hone : pagesChecked va len = 1 := by
        rw [not_or] at hnone
        rw [pagesChecked_below (by omega)]
        simp only [PGSIZE] at hnone ⊢
        omega
      rw [← or_assoc, or_iff_right hnone]
      obtain ⟨hW, hA, heq⟩ | ⟨hW, hA, heq⟩ | ⟨hW, e, heq⟩ := userMemCheck_of_pages_one hone
      · rw [heq]
        apply iff_of_true
        · exact Checked.passes (fun i hi => by omega) rfl
        · exact ⟨hW, hA⟩
      · rw [heq]
        apply iff_of_false
        · intro hchecked
          cases hchecked with
          | passes _ h => cases h
          | fails i hi _ _ _ => omega
        · exact fun h => hA h.2
      · rw [heq]
        apply iff_of_false
        · intro hchecked
          cases hchecked with
          | passes _ h => cases h
          | fails _ _ _ _ h => cases h
        · exact fun h => hW h.1
  · rw [if_neg hlen]
    by_cases hbelow : va.toNat + len.toNat ≤ lastPage
    · rw [if_pos hbelow]
      exact checked_of_below hlen hbelow
    · rw [if_neg hbelow]
      obtain ⟨i, hi, hbad⟩ := exists_not_mayAccess hlen
        (Nat.lt_of_not_le hbelow)
      by_cases hround : 2 ^ 32 + ROUNDDOWN va.toNat PGSIZE < va.toNat + len.toNat
          ∧ va.toNat < lastPage
      · rw [← and_assoc, and_iff_right hround]
        have hpos : 0 < len.toNat := by omega
        obtain ⟨hW, hA, heq⟩ | ⟨hW, hA, heq⟩ | ⟨hW, e, heq⟩ := userMemCheck_of_pages_one
          (pagesChecked_round hround.1 hround.2)
        · rw [heq]
          apply iff_of_false
          · intro hchecked
            cases hchecked with
            | passes hall _ => exact hbad (hall i hi)
            | fails _ _ _ _ h => cases h
          · exact fun h => h.2 hA
        · rw [heq]
          apply iff_of_true
          · apply Checked.fails 0 hpos
            · intro j hj
              omega
            · exact hA
            · simp
          · exact ⟨hW, hA⟩
        · rw [heq]
          apply iff_of_false
          · intro hchecked
            cases hchecked with
            | passes _ h => cases h
            | fails _ _ _ _ h => cases h
          · exact fun h => hW h.1
      · rw [checked_of_pages_zero (pagesChecked_above (Nat.lt_of_not_le hbelow) (by omega))]
        apply iff_of_false
        · exact fun hall => hbad (hall i hi)
        · rintro ⟨h1, h2, -⟩
          exact hround ⟨h1, h2⟩

/-- A range of addresses of the kernel that ends in the last byte but one of the address space
passes the check. -/
theorem userMemCheck_lastPage :
  ¬ Checked readOnlyKernel 1 0xF0000000 0x0FFFFFFF PTE_U
    (userMemCheck 1 0xF0000000 0x0FFFFFFF PTE_U readOnlyKernel)
  := by
  have hnone : pagesChecked 0xF0000000 0x0FFFFFFF = 0 := by decide
  rw [checked_of_pages_zero hnone]
  intro hall
  have hlt := (hall 0 (by decide)).1
  revert hlt
  decide

end Root

end Jos
