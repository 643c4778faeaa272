import Jos.Kern.MemInit

/-!
# Which memory is freed at boot

`page_init` is to put every page of memory on the free list that nothing uses: the base
memory but for the first page and the page where other processors start, and the memory
behind the kernel.  The memory behind the kernel starts at the physical address of
`boot_alloc(0)`.  The loop starts further up, by as much memory as lies below `EXTPHYSMEM`,
because the page number of `EXTPHYSMEM` is added to that of the address.
-/

namespace Jos

open Bytes Prog

/-! ### What is unused -/

/-- The page `p` is unused when memory of `npages` pages, `npagesBasemem` of them base memory,
is in use up to the kernel address `freeMem`. -/
def Unused (npages npagesBasemem freeMem p : Nat) : Prop :=
  (1 ≤ p ∧ p < npagesBasemem ∧ p ≠ MPENTRY_PADDR / PGSIZE)
    ∨ (PADDR freeMem / PGSIZE ≤ p ∧ p < npages)

/-- In `s` the free list contains each unused page once and no other page, and none of its
pages is referred to. -/
def UnusedFreed (npagesBasemem freeMem : Nat) (s : Kernel) : Prop :=
  ∃ l, Chain (fun p => (s.pages p).ppLink) s.pageFreeList l ∧ l.Nodup
    ∧ (∀ p ∈ l, (s.pages p).ppRef = 0) ∧ ∀ p, p ∈ l ↔ Unused s.npages npagesBasemem freeMem p

/-! ### What is freed -/

/-- Base memory ends before the first page of extended memory that is freed. -/
theorem basemem_le_firstExtPage {npagesBasemem : Nat} (hbase : npagesBasemem ≤ IOPHYSMEM / PGSIZE)
    (freeMem : Nat) :
  npagesBasemem ≤ firstExtPage freeMem
  := by
  have h160 : IOPHYSMEM / PGSIZE = 160 := by decide
  rw [firstExtPage_eq]
  apply Nat.le_trans (by omega) (Nat.le_add_right 256 _)

/-- The free memory that starts in extended memory does not start at the page where other
processors do. -/
theorem extmem_le {freeMem : Nat} (hfree : KERNBASE + EXTPHYSMEM ≤ freeMem) :
  256 ≤ PADDR freeMem / PGSIZE
  := by
  simp only [KERNBASE, EXTPHYSMEM, PADDR, PGSIZE] at hfree ⊢
  omega

/-- After `page_init` the free list is that of the unused memory if and only if there is no
memory behind the kernel. -/
theorem unusedFreed_iff {s s' : Kernel} {npagesBasemem freeMem : Nat} {l : List Nat}
    (hbase : npagesBasemem ≤ IOPHYSMEM / PGSIZE) (hfree : KERNBASE + EXTPHYSMEM ≤ freeMem)
    (hl : FirstFree l s s')
    (hmem : ∀ p, p ∈ l ↔ p ≠ MPENTRY_PADDR / PGSIZE
      ∧ ((1 ≤ p ∧ p < npagesBasemem) ∨ (firstExtPage freeMem ≤ p ∧ p < s.npages))) :
  UnusedFreed npagesBasemem freeMem s' ↔ s.npages ≤ PADDR freeMem / PGSIZE
  := by
  have h160 : IOPHYSMEM / PGSIZE = 160 := by decide
  have h7 : MPENTRY_PADDR / PGSIZE = 7 := by decide
  have hfirst := firstExtPage_eq freeMem
  have hext := extmem_le hfree
  have hn : s'.npages = s.npages := by rw [hl.quiet]
  constructor
  · rintro ⟨l', hchain, -, -, hmem'⟩
    obtain rfl := hl.chain.unique hchain
    by_contra hlt
    -- the first page behind the kernel is unused, and not on the list
    have hin : PADDR freeMem / PGSIZE ∈ l := by
      rw [hmem', hn]
      right
      omega
    obtain ⟨-, hlow | hhigh⟩ := (hmem _).mp hin
    · omega
    · omega
  · intro hle
    refine ⟨l, hl.chain, hl.nodup, hl.ref, ?_⟩
    intro p
    rw [hmem, Unused, hn]
    constructor
    · rintro ⟨hne, ⟨h1, h2⟩ | ⟨h1, h2⟩⟩
      · left
        exact ⟨h1, h2, hne⟩
      · omega
    · rintro (⟨h1, h2, hne⟩ | ⟨h1, h2⟩)
      · exact ⟨hne, Or.inl ⟨h1, h2⟩⟩
      · omega

/-- `page_init`, run with an empty free list, frees exactly the unused memory if and only if
there is no memory behind the kernel. -/
theorem pageInit_exact_iff {s : Kernel} (hnone : s.pageFreeList = none)
    {npagesBasemem freeMem : Nat} (hbase : npagesBasemem ≤ IOPHYSMEM / PGSIZE)
    (hfree : KERNBASE + EXTPHYSMEM ≤ freeMem) :
  (∃ s', pageInit npagesBasemem freeMem s = .ok ((), s') ∧ UnusedFreed npagesBasemem freeMem s')
    ↔ s.npages ≤ PADDR freeMem / PGSIZE
  := by
  obtain ⟨_, s', heq, l, hl, hmem⟩ :=
    (pageInit_ok (E := False) hnone (basemem_le_firstExtPage hbase freeMem)).returns id
  rw [← unusedFreed_iff hbase hfree hl hmem]
  constructor
  · rintro ⟨s'', heq', h⟩
    obtain ⟨-, rfl⟩ := ok_inj heq heq'
    exact h
  · intro h
    use s', heq

/-- Memory of four megabytes that is full with the kernel is freed exactly. -/
theorem pageInit_exact_full :
  ∃ s', pageInit 160 0xF0400000 { npages := 1024, kernPgdir := 0 } = .ok ((), s')
    ∧ UnusedFreed 160 0xF0400000 s'
  := (pageInit_exact_iff rfl (by decide) (by decide)).mpr (by decide)

/-- With sixty-four megabytes of memory, and the kernel in two of them, pages behind the kernel
are not freed. -/
theorem pageInit_loses :
  ¬ ∃ s', pageInit 160 0xF0200000 { npages := 0x4000, kernPgdir := 0 } = .ok ((), s')
    ∧ UnusedFreed 160 0xF0200000 s'
  := by
  obtain ⟨_, s', heq, l, hl, hmem⟩ :=
    (pageInit_ok (E := False) (s := { npages := 0x4000, kernPgdir := 0 }) rfl
      (basemem_le_firstExtPage (by decide : 160 ≤ IOPHYSMEM / PGSIZE) 0xF0200000)).returns id
  rintro ⟨s'', heq', h⟩
  obtain ⟨-, rfl⟩ := ok_inj heq heq'
  have hle := (unusedFreed_iff (by decide) (by decide) hl hmem).mp h
  exact absurd hle (by decide)

end Jos
