import Jos.Kern.Boot
import Jos.Lib.Frame

/-!
# Setting up memory at boot

The part of `kern/pmap.c` that runs once: `boot_alloc` takes memory behind the kernel for
the kernel's page directory and for the arrays `pages` and `envs`, `page_init` frees the
rest, and `boot_map_region` fills the page tables of the kernel.

The self-tests among them put back what they change but for the order of the list of free
pages and what is in those pages, so that any order and any contents are allowed where they
run.  The one thing `check_page` leaves behind is a page table for memory-mapped devices.

What comes out is a kernel as the page allocator expects it, and what the page tables of
the kernel hold above `UTOP` is known.
-/

namespace Jos

open Bytes

/-! ### Sizes -/

/-- The size of a `struct PageInfo`. -/
def sizeofPageInfo : Nat := 8
/-- The size of a `struct Env`. -/
def sizeofEnv : Nat := 124

def IOPHYSMEM : Nat := 0x0A0000
def EXTPHYSMEM : Nat := 0x100000
def MPENTRY_PADDR : Nat := 0x7000
def KSTKSIZE : Nat := 8 * PGSIZE
def KSTKGAP : Nat := 8 * PGSIZE
def NCPU : Nat := 1

/-- Write-through. -/
def PTE_PWT : Word := 0x008
/-- Cache-disable. -/
def PTE_PCD : Word := 0x010

/-- The next multiple of the page size. -/
def ROUNDUP (n : Nat) : Nat := (n + PGSIZE - 1) / PGSIZE * PGSIZE

/-- The physical address of a kernel address. -/
def PADDR (kva : Nat) : Nat := kva - KERNBASE

/-! ### What the kernel finds at boot -/

/-- The sizes of memory, and the addresses the linker gave the end of the kernel and its
stacks. Physical addresses have 32 bits, and the kernel lies in the memory that is mapped
when it starts. -/
structure BootInfo where
  npages : Nat
  npagesBasemem : Nat
  kernEnd : Nat
  bootstack : Nat
  percpuKstacks : Nat
  npages_le : npages ≤ 2 ^ 20
  kernEnd_ge : KERNBASE + EXTPHYSMEM ≤ kernEnd
  kernEnd_le : kernEnd ≤ 0xF0400000

/-- The addresses of what is allocated at boot, and of the memory behind it. -/
structure BootArrays where
  pages : Nat
  envs : Nat
  nextfree : Nat

/-! ### Allocating at boot -/

/-- Allocate `n` bytes behind `nextfree`, and give back the new end as well. -/
def bootAlloc (nextfree n : Nat) : Prog Kernel (Nat × Nat) :=
  if 0 < n then
    if nextfree + ROUNDUP n > 0xF0400000 then
      Prog.panic "Out of memory\n"
    else
      pure (nextfree, nextfree + ROUNDUP n)
  else
    pure (nextfree, nextfree)

/-- Put the page `i` on the free list, unless the other processors start there. -/
def pageInitOne (i : Nat) : Prog Kernel Unit :=
  if i ≠ MPENTRY_PADDR / PGSIZE then
    modify (fun s => { s.setPage i { ppRef := 0, ppLink := s.pageFreeList } with
      pageFreeList := some i })
  else
    pure ()

/-- The first page of extended memory that is freed. The address of the free memory counts
the memory below `EXTPHYSMEM` already. -/
def firstExtPage (freeMem : Nat) : Nat :=
  ROUNDUP EXTPHYSMEM / PGSIZE + PADDR freeMem / PGSIZE

/-- Free the base memory but for the first page, and the memory behind the kernel. -/
def pageInit (npagesBasemem freeMem : Nat) : Prog Kernel Unit := do
  Prog.forUp 1 (npagesBasemem - 1) pageInitOne
  let s ← get
  Prog.forUp (firstExtPage freeMem) (s.npages - firstExtPage freeMem) pageInitOne

/-- Allocate the page directory of the kernel and the arrays, and free what remains. -/
def memInitArrays (b : BootInfo) : Prog Kernel BootArrays := do
  modify (fun s => { s with npages := b.npages })
  let (kernPgdir, nextfree) ← bootAlloc (ROUNDUP b.kernEnd) PGSIZE
  let pgdir := PADDR kernPgdir / PGSIZE
  modify (fun s => { s.zeroPage pgdir with kernPgdir := pgdir })
  modify (fun s => s.setEntry pgdir (PDX (BitVec.ofNat 32 UVPT)) (page2pa pgdir ||| PTE_U ||| PTE_P))
  let (pages, nextfree) ← bootAlloc nextfree (b.npages * sizeofPageInfo)
  modify (fun s => { s with pages := fun p => if p < b.npages then {} else s.pages p })
  let (envs, nextfree) ← bootAlloc nextfree (NENV * sizeofEnv)
  pageInit b.npagesBasemem nextfree
  pure { pages := pages, envs := envs, nextfree := nextfree }

/-! ### Mapping at boot -/

/-- Map one page without counting a reference to it. Without a page for a page table the
entry is at address `0`. -/
def bootMapPage (pgdir : Nat) (va pa perm : Word) : Prog Kernel Unit := do
  match ← pgdirWalk pgdir va true with
  | none => Prog.fault 0
  | some pt => modify (fun s => s.setEntry pt.1 pt.2 (pa ||| perm ||| PTE_P))

/-- Map the physical memory from `pa` on at `va`. -/
def bootMapRegion (pgdir va size pa : Nat) (perm : Word) : Prog Kernel Unit :=
  Prog.forUp 0 (ROUNDUP size / PGSIZE) (fun i =>
    bootMapPage pgdir (BitVec.ofNat 32 (ROUNDUP va + i * PGSIZE))
      (BitVec.ofNat 32 (ROUNDUP pa + i * PGSIZE)) perm)

/-- Map device memory at `base`, and give back where the next is mapped. -/
def mmioMapRegion (base pa size : Nat) : Prog Kernel (Nat × Nat) := do
  if base + ROUNDUP size > MMIOLIM then
    Prog.panic "Size greater than io memory exists\n"
  else
    let s ← get
    bootMapRegion s.kernPgdir base (ROUNDUP size) pa (PTE_P ||| PTE_W ||| PTE_PCD ||| PTE_PWT)
    pure (base, base + ROUNDUP size)

/-- Clear the entry of `va`. -/
def clearEntry (va : Nat) : Prog Kernel Unit := do
  let s ← get
  match ← pgdirWalk s.kernPgdir (BitVec.ofNat 32 va) false with
  | none => Prog.fault 0
  | some pt => modify (fun s => s.setEntry pt.1 pt.2 0)

/-- The part of `check_page` that maps device memory and clears the entries again. -/
def checkMmio : Prog Kernel Unit := do
  let (mm1, base) ← mmioMapRegion MMIOBASE 0 4097
  let (mm2, _) ← mmioMapRegion base 0 4096
  clearEntry mm1
  clearEntry (mm1 + PGSIZE)
  clearEntry mm2

/-- Map the stacks of the processors. -/
def memInitMp (b : BootInfo) : Prog Kernel Unit :=
  Prog.forUp 0 NCPU (fun i => do
    let s ← get
    bootMapRegion s.kernPgdir (KSTACKTOP - i * (KSTKSIZE + KSTKGAP) - KSTKSIZE) KSTKSIZE
      (PADDR (b.percpuKstacks + i * KSTKSIZE)) (PTE_P ||| PTE_W))

/-- Map the arrays for environments to read, and the stacks and physical memory for the
kernel. -/
def memInitMap (b : BootInfo) (a : BootArrays) : Prog Kernel Unit := do
  let s ← get
  bootMapRegion s.kernPgdir UPAGES PTSIZE (PADDR a.pages) (PTE_U ||| PTE_P)
  bootMapRegion s.kernPgdir UENVS PTSIZE (PADDR a.envs) (PTE_U ||| PTE_P)
  bootMapRegion s.kernPgdir (KSTACKTOP - KSTKSIZE) KSTKSIZE (PADDR b.bootstack) (PTE_P ||| PTE_W)
  memInitMp b
  bootMapRegion s.kernPgdir KERNBASE (0xFFFFFFFF - KERNBASE) 0 (PTE_P ||| PTE_W)

/-! ### The whole of `mem_init` -/

/-- What the self-tests of the page allocator leave behind: the free pages in another order
and with other contents. -/
structure SelfTested (s s' : Kernel) : Prop where
  quiet : Quiet s s'
  lists : ∃ l l', Chain (fun p => (s.pages p).ppLink) s.pageFreeList l
    ∧ Chain (fun p => (s'.pages p).ppLink) s'.pageFreeList l' ∧ l'.Perm l
    ∧ (∀ p ∈ l, (s'.pages p).ppRef = (s.pages p).ppRef)
    ∧ ∀ p ∉ l, s'.pages p = s.pages p
      ∧ ∀ o < PGSIZE, s'.mem (p * PGSIZE + o) = s.mem (p * PGSIZE + o)

/-- What `check_page_free_list` accepts: no free page lies between base memory and the end of
the kernel, and there is free memory behind the kernel. -/
structure FreeListChecked (b : BootInfo) (a : BootArrays) : Prop where
  basemem : b.npagesBasemem ≤ IOPHYSMEM / PGSIZE
  extmem : firstExtPage a.nextfree < b.npages

/-- The states `s` in which `mem_init` returns when the kernel finds `b`. -/
structure MemInit (b : BootInfo) (a : BootArrays) (s : Kernel) : Prop where
  checked : FreeListChecked b a
  run : ∃ s₀ s₁ s₂ s₃ s₄, s₀.pageFreeList = none ∧ s₀.curenv = none
    ∧ memInitArrays b s₀ = .ok (a, s₁) ∧ SelfTested s₁ s₂ ∧ checkMmio s₂ = .ok ((), s₃)
    ∧ memInitMap b a s₃ = .ok ((), s₄) ∧ SelfTested s₄ s

/-! ### Running the parts -/

theorem ROUNDUP_dvd (n : Nat) :
  PGSIZE ∣ ROUNDUP n
  := Nat.dvd_mul_left PGSIZE _

theorem ROUNDUP_of_dvd {n : Nat} (h : PGSIZE ∣ n) :
  ROUNDUP n = n
  := by
  obtain ⟨k, rfl⟩ := h
  simp only [ROUNDUP, PGSIZE]
  omega

theorem le_ROUNDUP (n : Nat) :
  n ≤ ROUNDUP n
  := by
  simp only [ROUNDUP, PGSIZE]
  omega

theorem firstExtPage_eq (freeMem : Nat) :
  firstExtPage freeMem = 256 + PADDR freeMem / PGSIZE
  := by
  have h256 : ROUNDUP EXTPHYSMEM / PGSIZE = 256 := by decide
  rw [firstExtPage, h256]

/-! ### The page tables of the kernel -/

namespace Kernel

/-- The state without environments, as which the kernel counts at boot, whatever is in the
memory of `envs`. -/
def noEnvs (s : Kernel) : Kernel :=
  { s with envs := fun _ => {} }

/-- The `t`-th entry of the `d`-th page table of the kernel. -/
def kernPte (s : Kernel) (d t : Nat) : Word :=
  match refOf (s.entry s.kernPgdir d) with
  | some pt => s.entry pt t
  | none => 0

/-- The entries of the kernel's directory that have page tables. -/
def kernTables (s : Kernel) : Finset (Fin NPDENTRIES) :=
  Finset.univ.filter (fun d => (s.slotRef (.kern d)).isSome)

theorem kernTables_le (s : Kernel) :
  s.kernTables.card ≤ 1024
  := by
  apply (Finset.card_le_univ _).trans
  rw [Fintype.card_fin]
  decide

theorem noEnvs_slotRef (s : Kernel) {x : Slot} (hx : ∀ d, x ≠ .kern d) :
  s.noEnvs.slotRef x = none
  := slotRef_of_free (fun _ _ => rfl) hx

end Kernel

theorem quiet_setEntry (s : Kernel) (p i : Nat) (w : Word) :
  Quiet s (s.setEntry p i w)
  := rfl

/-- The entry `t` of the page table `d` becomes `w`. -/
def setMap (g : Nat → Nat → Word) (d t : Nat) (w : Word) : Nat → Nat → Word :=
  fun d' t' => if d' = d ∧ t' = t then w else g d' t'

/-- A kernel at boot: the page tables hold the entries `g`, and `n` pages are free or page
tables of the kernel. -/
structure Booting (avail : Finset Nat) (n : Nat) (l : List Nat) (g : Nat → Nat → Word)
    (s : Kernel) : Prop where
  mem : MemInv avail ∅ (fun _ => 0) l s.noEnvs
  kern_lt : s.kernPgdir < s.npages
  uvpt : s.entry s.kernPgdir UVPTX = page2pa s.kernPgdir ||| PTE_U ||| PTE_P
  pde : ∀ d < 1024, d ≠ UVPTX → refOf (s.entry s.kernPgdir d) ≠ none →
    NUPDE ≤ d ∧ ∃ p < 2 ^ 20, s.entry s.kernPgdir d = tableEntry p
  pte : ∀ d < 1024, d ≠ UVPTX → ∀ t < 1024, s.kernPte d t = g d t
  count : l.length + s.noEnvs.kernTables.card = n

namespace Booting

variable {avail : Finset Nat} {n : Nat} {l : List Nat} {g : Nat → Nat → Word} {s s' : Kernel}
  {d : Nat}

/-- A page table of the kernel is what a slot refers to. -/
theorem slotRef (hge : NUPDE ≤ d) (hne : d ≠ UVPTX) (hd : d < 1024) :
  s.noEnvs.slotRef (.kern ⟨d, hd⟩) = refOf (s.entry s.kernPgdir d)
  := by
  rw [Kernel.slotRef, if_pos ⟨hge, hne⟩]
  rfl

/-- The page table of a present entry. -/
theorem table (h : Booting avail n l g s) (hd : d < 1024) (hne : d ≠ UVPTX) {pt : Nat}
    (hpt : refOf (s.entry s.kernPgdir d) = some pt) :
  s.noEnvs.slotRef (.kern ⟨d, hd⟩) = some pt ∧ pt ≠ s.kernPgdir ∧ pt < s.npages
  := by
  obtain ⟨hge, -⟩ := h.pde d hd hne (by rw [hpt]; simp)
  have hx : s.noEnvs.slotRef (.kern ⟨d, hd⟩) = some pt := by rw [slotRef hge hne, hpt]
  use hx
  constructor
  · exact Kernel.ne_kernPgdir h.mem hx
  · exact Kernel.lt_npages h.mem hx

/-- The state after a free page becomes the page table of an entry that has none. -/
theorem withTable_slotRef {p : Nat} (h : Booting avail n (p :: l) g s) (hd : d < 1024)
    (hge : NUPDE ≤ d) (hne : d ≠ UVPTX) :
  (∀ d' < 1024, (s.withTable s.kernPgdir d p).entry s.kernPgdir d'
    = if d' = d then tableEntry p else s.entry s.kernPgdir d')
  ∧ (s.withTable s.kernPgdir d p).noEnvs.slotRef
    = Function.update s.noEnvs.slotRef (.kern ⟨d, hd⟩) (some p)
  := by
  have hp := h.mem.refs_free List.mem_cons_self
  have hlt := h.mem.avail_lt p hp.1
  have hn := h.mem.npages_le
  have hentry : ∀ d' < 1024, (s.withTable s.kernPgdir d p).entry s.kernPgdir d'
      = if d' = d then tableEntry p else s.entry s.kernPgdir d' := by
    intro d' hd'
    rw [Kernel.withTable]
    by_cases hdd : d' = d
    · rw [hdd, if_pos rfl, Kernel.entry_setEntry]
    · rw [if_neg hdd, Kernel.entry_setEntry_of_ne _ _ hd hd' (Or.inr hdd)]
      exact h.mem.taken_sameTables.entry _ (Or.inl rfl) d' hd'
  use hentry
  funext x
  cases x with
  | dir e =>
      rw [Function.update_of_ne (by simp), Kernel.noEnvs_slotRef _ (by simp),
        Kernel.noEnvs_slotRef _ (by simp)]
  | table e d' =>
      rw [Function.update_of_ne (by simp), Kernel.noEnvs_slotRef _ (by simp),
        Kernel.noEnvs_slotRef _ (by simp)]
  | page e d' t =>
      rw [Function.update_of_ne (by simp), Kernel.noEnvs_slotRef _ (by simp),
        Kernel.noEnvs_slotRef _ (by simp)]
  | kern d' =>
      have hd' := d'.isLt
      have hkern : (s.withTable s.kernPgdir d p).noEnvs.slotRef (.kern d')
          = if NUPDE ≤ d'.val ∧ d'.val ≠ UVPTX then
              refOf ((s.withTable s.kernPgdir d p).entry s.kernPgdir d') else none := rfl
      rw [hkern, hentry d' hd']
      by_cases hdd : d'.val = d
      · obtain rfl : d' = ⟨d, hd⟩ := Fin.ext hdd
        rw [if_pos ⟨hge, hne⟩, if_pos rfl, Function.update_self]
        apply refOf_tableEntry
        exact Nat.lt_of_lt_of_le hlt hn
      · rw [if_neg hdd, Function.update_of_ne (fun he => hdd (congrArg Fin.val (Slot.kern.inj he)))]
        rfl

/-- Making a page table keeps what holds at boot. -/
theorem withTable {p : Nat} (h : Booting avail n (p :: l) g s) (hd : d < 1024)
    (hge : NUPDE ≤ d) (hne : d ≠ UVPTX) (hnone : refOf (s.entry s.kernPgdir d) = none) :
  Booting avail n l g (s.withTable s.kernPgdir d p)
  := by
  have hp := h.mem.refs_free List.mem_cons_self
  have hp' : p ∉ l := (List.nodup_cons.mp h.mem.balanced.nodup).1
  have hlt : p < s.npages := h.mem.avail_lt p hp.1
  have hn : s.npages ≤ 2 ^ 20 := h.mem.npages_le
  have hpk : p ≠ s.kernPgdir := fun he => h.mem.kern_notMem (he ▸ hp.1)
  have ht := h.mem.taken_sameTables
  have hx : s.noEnvs.slotRef (.kern ⟨d, hd⟩) = none := by rw [slotRef hge hne, hnone]
  obtain ⟨hentry, href⟩ := h.withTable_slotRef hd hge hne
  have hte : refOf (tableEntry p) = some p := refOf_tableEntry (by omega)
  have hold : ∀ r, s.noEnvs.IsTable r → ∀ i < 1024,
      (s.withTable s.kernPgdir d p).entry r i = s.entry r i ∨ r = s.kernPgdir := by
    intro r hr i hi
    by_cases hrk : r = s.kernPgdir
    · right
      exact hrk
    · left
      rw [Kernel.withTable, Kernel.entry_setEntry_of_ne _ _ hd hi (Or.inl hrk)]
      exact ht.entry r hr i hi
  constructor
  case mem =>
    have h' := h.mem.taken.incref hp.1 hp'
    have href' : ((s.noEnvs.taken p).incref p).slotRef = s.noEnvs.slotRef := by
      rw [(incref_sameTables p).slotRef, ht.slotRef]
    have hu : ∀ y, s.noEnvs.slotRef y ≠ some p := by
      intro y
      have h0 := hp.2.2.1
      rw [Kernel.refs, refCount.eq_zero_iff] at h0
      exact h0 y (mem_slots y)
    rw [← href'] at hu
    have hnew : MemInv avail ((insert p ∅ : Finset Nat).erase p) _ l
        (s.withTable s.kernPgdir d p).noEnvs :=
      h'.attach (by rw [href', href]) rfl rfl rfl rfl (by rw [href']; exact hx) (by simp)
        (fun y hy => (hu y hy).elim) (fun _ => hu)
    rw [Finset.erase_insert (Finset.notMem_empty p)] at hnew
    simp only [Function.update_self, Nat.add_sub_cancel, Function.update_idem] at hnew
    rw [Function.update_eq_self] at hnew
    exact hnew
  case kern_lt => exact h.kern_lt
  case uvpt =>
    change (s.withTable s.kernPgdir d p).entry s.kernPgdir UVPTX = _
    rw [hentry UVPTX (by decide), if_neg (Ne.symm hne)]
    exact h.uvpt
  case pde =>
    intro d' hd' hne'
    change refOf ((s.withTable s.kernPgdir d p).entry s.kernPgdir d') ≠ none → _
    intro hsome
    have hd := hentry d' hd'
    by_cases hdd : d' = d
    · rw [if_pos hdd] at hd
      rw [hdd]
      exact ⟨hge, p, by omega, hdd ▸ hd⟩
    · rw [if_neg hdd] at hd
      rw [hd] at hsome
      obtain ⟨hge', q, hq, hqe⟩ := h.pde d' hd' hne' hsome
      exact ⟨hge', q, hq, hd.trans hqe⟩
  case pte =>
    intro d' hd' hne' t ht'
    rw [← h.pte d' hd' hne' t ht']
    have hk : (s.withTable s.kernPgdir d p).kernPgdir = s.kernPgdir := rfl
    rw [Kernel.kernPte, Kernel.kernPte, hk, hentry d' hd']
    by_cases hdd : d' = d
    · rw [if_pos hdd, hte, hdd, hnone]
      change (s.withTable s.kernPgdir d p).entry p t = 0
      rw [Kernel.withTable, Kernel.entry_setEntry_of_ne _ _ hd ht' (Or.inl hpk)]
      exact entry_taken p ht'
    · rw [if_neg hdd]
      cases hpt : refOf (s.entry s.kernPgdir d') with
      | none => rfl
      | some pt =>
          obtain ⟨hxt, hptk, -⟩ := h.table hd' hne' hpt
          exact (hold pt (Or.inr ⟨.kern ⟨d', hd'⟩, trivial, hxt⟩) t ht').resolve_right hptk
  case count =>
    have hins : (s.withTable s.kernPgdir d p).noEnvs.kernTables
        = insert ⟨d, hd⟩ s.noEnvs.kernTables := by
      ext d'
      rw [Finset.mem_insert, Kernel.kernTables, Kernel.kernTables, Finset.mem_filter,
        Finset.mem_filter, href]
      by_cases hdd : d' = ⟨d, hd⟩
      · rw [hdd, Function.update_self]
        simp
      · rw [Function.update_of_ne (fun he => hdd (Slot.kern.inj he))]
        simp [hdd]
    have hnot : (⟨d, hd⟩ : Fin NPDENTRIES) ∉ s.noEnvs.kernTables := by
      rw [Kernel.kernTables, Finset.mem_filter, hx]
      simp
    rw [hins, Finset.card_insert_of_notMem hnot]
    have := h.count
    rw [List.length_cons] at this
    omega

/-- Setting an entry of a page table keeps what holds at boot. -/
theorem setEntry (h : Booting avail n l g s) (hd : d < 1024) (hne : d ≠ UVPTX) {pt t : Nat}
    (hpt : refOf (s.entry s.kernPgdir d) = some pt) (ht : t < 1024) (w : Word) :
  Booting avail n l (setMap g d t w) (s.setEntry pt t w)
  := by
  obtain ⟨hx, hptk, -⟩ := h.table hd hne hpt
  have hk : (s.setEntry pt t w).kernPgdir = s.kernPgdir := rfl
  have hentry : ∀ i < 1024, (s.setEntry pt t w).entry s.kernPgdir i = s.entry s.kernPgdir i := by
    intro i hi
    exact Kernel.entry_setEntry_of_ne _ _ ht hi (Or.inl hptk.symm)
  have href : (s.setEntry pt t w).noEnvs.slotRef = s.noEnvs.slotRef := by
    funext x
    cases x with
    | dir e => rw [Kernel.noEnvs_slotRef _ (by simp), Kernel.noEnvs_slotRef _ (by simp)]
    | table e d' => rw [Kernel.noEnvs_slotRef _ (by simp), Kernel.noEnvs_slotRef _ (by simp)]
    | page e d' t' => rw [Kernel.noEnvs_slotRef _ (by simp), Kernel.noEnvs_slotRef _ (by simp)]
    | kern d' =>
        have hkern : (s.setEntry pt t w).noEnvs.slotRef (.kern d')
            = if NUPDE ≤ d'.val ∧ d'.val ≠ UVPTX then
                refOf ((s.setEntry pt t w).entry s.kernPgdir d') else none := rfl
        rw [hkern, hentry d' d'.isLt]
        rfl
  constructor
  case mem =>
    have hb := h.mem.balanced
    rw [show s.noEnvs.store l ∅ (fun _ => 0) = (s.setEntry pt t w).noEnvs.store l ∅ (fun _ => 0) by
      rw [Kernel.store, Kernel.store, href]
      rfl] at hb
    exact h.mem.of_store rfl rfl rfl rfl hb
  case kern_lt => exact h.kern_lt
  case uvpt =>
    rw [hk, hentry UVPTX (by decide)]
    exact h.uvpt
  case pde =>
    intro d' hd' hne'
    rw [hk, hentry d' hd']
    exact h.pde d' hd' hne'
  case pte =>
    intro d' hd' hne' t' ht'
    have hpte := h.pte d' hd' hne' t' ht'
    rw [Kernel.kernPte] at hpte
    rw [Kernel.kernPte, hk, hentry d' hd', setMap]
    by_cases hdd : d' = d
    · subst hdd
      rw [hpt] at hpte ⊢
      simp only at hpte ⊢
      by_cases htt : t' = t
      · rw [if_pos ⟨trivial, htt⟩, htt, Kernel.entry_setEntry]
      · rw [if_neg (fun hc => htt hc.2), Kernel.entry_setEntry_of_ne _ _ ht ht' (Or.inr htt)]
        exact hpte
    · rw [if_neg (fun hc => hdd hc.1), ← hpte]
      cases hpt' : refOf (s.entry s.kernPgdir d') with
      | none => rfl
      | some pt' =>
          obtain ⟨hx', -, -⟩ := h.table hd' hne' hpt'
          have hpp : pt' ≠ pt := by
            rintro rfl
            have he := h.mem.balanced.owned (.kern ⟨d, hd⟩) (.kern ⟨d', hd'⟩) pt' trivial hx hx'
            exact hdd (congrArg Fin.val (Slot.kern.inj he))
          exact Kernel.entry_setEntry_of_ne _ _ ht ht' (Or.inl hpp)
  case count =>
    have htab : (s.setEntry pt t w).noEnvs.kernTables = s.noEnvs.kernTables := by
      rw [Kernel.kernTables, Kernel.kernTables, href]
    rw [htab]
    exact h.count

theorem congr {g' : Nat → Nat → Word} (h : Booting avail n l g s)
    (hg : ∀ d < 1024, ∀ t < 1024, g' d t = g d t) :
  Booting avail n l g' s
  := by
  constructor
  case mem => exact h.mem
  case kern_lt => exact h.kern_lt
  case uvpt => exact h.uvpt
  case pde => exact h.pde
  case pte =>
    intro d hd hne t ht
    rw [hg d hd t ht]
    exact h.pte d hd hne t ht
  case count => exact h.count

/-! ### Mapping -/

/-- From `s` the kernel came to `s'`, where its page tables hold the entries `g`. -/
def To (avail : Finset Nat) (n : Nat) (g : Nat → Nat → Word) (s s' : Kernel) : Prop :=
  (∃ l, Booting avail n l g s') ∧ Quiet s s'

/-- Walking to an entry of a page table of the kernel. -/
theorem walk (h : Booting avail n l g s) (va : Word) (create : Bool) (hne : PDX va ≠ UVPTX)
    {pt : Nat} (hpt : refOf (s.entry s.kernPgdir (PDX va)) = some pt) :
  pgdirWalk s.kernPgdir va create s = .ok (some (pt, PTX va), s)
  := by
  obtain ⟨-, -, hlt⟩ := h.table (PDX_lt va) hne hpt
  exact pgdirWalk_eq_some create hpt hlt

/-- Walking to an entry that has no page table yet takes the first free page. -/
theorem walk_create {p : Nat} (h : Booting avail n (p :: l) g s) {va : Word}
    (hpt : refOf (s.entry s.kernPgdir (PDX va)) = none) :
  pgdirWalk s.kernPgdir va true s
    = .ok (some (p, PTX va), s.withTable s.kernPgdir (PDX va) p)
  := by
  have hlt : p < s.npages := h.mem.avail_lt p (h.mem.refs_free List.mem_cons_self).1
  have hn : s.npages ≤ 2 ^ 20 := h.mem.npages_le
  have hlist : s.pageFreeList = some p := h.mem.chain.1
  have hpa : PGNUM (page2pa p) = p := PGNUM_page2pa (by omega)
  rw [pgdirWalk, Prog.get_bind, if_pos (refOf_eq_none.mp hpt), if_neg (by simp),
    Prog.bind_of_eq (pageAlloc_eq_some hlist hlt hn)]
  simp only
  rw [Prog.bind_of_eq (pageIncref_eq p), Prog.modify_bind, Prog.bind_of_eq (KADDR_eq _), hpa]
  · rfl
  · rw [hpa]
    exact hlt

/-- Mapping a page sets its entry, unless there is no page for the page table. -/
theorem bootMapPage (h : Booting avail n l g s) (va pa perm : Word)
    (hge : NUPDE ≤ PDX va) (hne : PDX va ≠ UVPTX) :
  (Jos.bootMapPage s.kernPgdir va pa perm).EndsUnless (n ≤ 1024) s
    (fun _ s' => To avail n (setMap g (PDX va) (PTX va) (pa ||| perm ||| PTE_P)) s s')
  := by
  rw [Jos.bootMapPage]
  cases hpt : refOf (s.entry s.kernPgdir (PDX va)) with
  | some pt =>
      rw [Prog.endsUnless_bind_of_eq (h.walk va true hne hpt)]
      apply Prog.endsUnless_modify.mpr
      constructor
      · use l
        exact h.setEntry (PDX_lt va) hne hpt (PTX_lt va) _
      · rfl
  | none =>
      cases l with
      | nil =>
          have hlist : s.pageFreeList = none := h.mem.pageFreeList_eq_none.mpr rfl
          have hwalk : pgdirWalk s.kernPgdir va true s = .ok (none, s) := by
            rw [pgdirWalk, Prog.get_bind, if_pos (refOf_eq_none.mp hpt), if_neg (by simp),
              Prog.bind_of_eq (pageAlloc_eq_none hlist)]
            rfl
          rw [Prog.endsUnless_bind_of_eq hwalk]
          have hcount := h.count
          have hle := s.noEnvs.kernTables_le
          rw [List.length_nil] at hcount
          apply Prog.EndsUnless.fault
          omega
      | cons p l =>
          have h' := h.withTable (PDX_lt va) hge hne hpt
          have hlt : p < s.npages := h.mem.avail_lt p (h.mem.refs_free List.mem_cons_self).1
          have hn : s.npages ≤ 2 ^ 20 := h.mem.npages_le
          have hpt' : refOf ((s.withTable s.kernPgdir (PDX va) p).entry s.kernPgdir (PDX va))
              = some p := by
            rw [(h.withTable_slotRef (PDX_lt va) hge hne).1 _ (PDX_lt va), if_pos rfl,
              refOf_tableEntry (by omega)]
          have hq : Quiet s (s.withTable s.kernPgdir (PDX va) p) := rfl
          rw [Prog.endsUnless_bind_of_eq (h.walk_create hpt)]
          apply Prog.endsUnless_modify.mpr
          constructor
          · use l
            exact h'.setEntry (PDX_lt va) hne hpt' (PTX_lt va) _
          · exact hq.trans (quiet_setEntry _ _ _ _)

end Booting

/-- The entries after the `c` pages from the page number `v` on are mapped to `pa`. -/
def mapRegion (g : Nat → Nat → Word) (v c pa : Nat) (perm : Word) : Nat → Nat → Word :=
  fun d t =>
    if v ≤ d * 1024 + t ∧ d * 1024 + t < v + c then
      BitVec.ofNat 32 (pa + (d * 1024 + t - v) * PGSIZE) ||| perm ||| PTE_P
    else
      g d t

/-- The entries of the page tables of the kernel after boot. -/
def bootMap (b : BootInfo) (a : BootArrays) : Nat → Nat → Word :=
  let g := mapRegion (fun _ _ => 0) 0xEF000 1024 (ROUNDUP (PADDR a.pages)) (PTE_U ||| PTE_P)
  let g := mapRegion g 0xEEC00 1024 (ROUNDUP (PADDR a.envs)) (PTE_U ||| PTE_P)
  let g := mapRegion g 0xEFFF8 8 (ROUNDUP (PADDR b.bootstack)) (PTE_P ||| PTE_W)
  let g := mapRegion g 0xEFFF8 8 (ROUNDUP (PADDR b.percpuKstacks)) (PTE_P ||| PTE_W)
  mapRegion g 0xF0000 65536 0 (PTE_P ||| PTE_W)

/-- The pages from `v` on are mapped by page tables of the kernel that are its own. -/
def OwnTables (v c : Nat) : Prop :=
  ∀ i < c, NUPDE ≤ (v + i) / 1024 ∧ (v + i) / 1024 ≠ UVPTX ∧ v + i < 2 ^ 20

/-- The address of a page number has these indices. -/
theorem PDX_ofNat {v : Nat} (hv : v < 2 ^ 20) :
  PDX (BitVec.ofNat 32 (v * PGSIZE)) = v / 1024 ∧ PTX (BitVec.ofNat 32 (v * PGSIZE)) = v % 1024
  := by
  rw [PDX_eq, PTX_eq, BitVec.toNat_ofNat, Nat.mod_eq_of_lt]
  · simp only [PGSIZE]
    omega
  · simp only [PGSIZE]
    omega

namespace Booting

variable {avail : Finset Nat} {n : Nat} {l : List Nat} {g : Nat → Nat → Word} {s s' : Kernel}

/-- Mapping a region sets its entries, unless there are no pages for the page tables. -/
theorem bootMapRegion (h : Booting avail n l g s) (va size pa : Nat) (perm : Word)
    (hown : OwnTables (ROUNDUP va / PGSIZE) (ROUNDUP size / PGSIZE)) :
  (Jos.bootMapRegion s.kernPgdir va size pa perm).EndsUnless (n ≤ 1024) s (fun _ s' =>
    To avail n (mapRegion g (ROUNDUP va / PGSIZE) (ROUNDUP size / PGSIZE) (ROUNDUP pa) perm) s s')
  := by
  obtain ⟨v, hv⟩ := ROUNDUP_dvd va
  have hdiv : ROUNDUP va / PGSIZE = v := by
    rw [hv, Nat.mul_div_cancel_left _ (by decide)]
  rw [hdiv] at hown ⊢
  have hloop : (Jos.bootMapRegion s.kernPgdir va size pa perm).EndsUnless (n ≤ 1024) s
      (fun _ s' => To avail n (mapRegion g v (0 + ROUNDUP size / PGSIZE) (ROUNDUP pa) perm) s s') := by
    apply Prog.EndsUnless.forUp (fun i s' => To avail n (mapRegion g v i (ROUNDUP pa) perm) s s')
    · intro i s' _ hi ⟨⟨l', h'⟩, hq⟩
      obtain ⟨hge, hne, hlt⟩ := hown i (by omega)
      have hva : BitVec.ofNat 32 (ROUNDUP va + i * PGSIZE) = BitVec.ofNat 32 ((v + i) * PGSIZE) := by
        rw [hv, Nat.add_mul, Nat.mul_comm PGSIZE]
      obtain ⟨hd, ht⟩ := PDX_ofNat hlt
      have hk : s'.kernPgdir = s.kernPgdir := by rw [hq]
      rw [hva, ← hk]
      have hstep := h'.bootMapPage (BitVec.ofNat 32 ((v + i) * PGSIZE))
        (BitVec.ofNat 32 (ROUNDUP pa + i * PGSIZE)) perm (by rw [hd]; exact hge)
        (by rw [hd]; exact hne)
      apply hstep.mono
      intro _ s'' ⟨⟨l'', h''⟩, hq'⟩
      refine ⟨⟨l'', h''.congr ?_⟩, hq.trans hq'⟩
      intro d _ t ht'
      rw [hd, ht, setMap, mapRegion, mapRegion]
      by_cases hdt : d = (v + i) / 1024 ∧ t = (v + i) % 1024
      · have hidx : d * 1024 + t = v + i := by omega
        rw [if_pos hdt, if_pos (by omega), hidx, Nat.add_sub_cancel_left]
      · rw [if_neg hdt]
        have hidx : d * 1024 + t ≠ v + i := by omega
        by_cases hin : v ≤ d * 1024 + t ∧ d * 1024 + t < v + i
        · rw [if_pos hin, if_pos (by omega)]
        · rw [if_neg hin, if_neg (by omega)]
    · refine ⟨⟨l, h.congr ?_⟩, Quiet.refl s⟩
      intro d _ t _
      rw [mapRegion, if_neg (by omega)]
  rw [Nat.zero_add] at hloop
  exact hloop

/-- A present entry is not zero. -/
theorem or_present_ne (w : Word) :
  w ||| PTE_P ≠ 0
  := by
  intro h
  have hbit := congrArg (fun x => x.getLsbD 0) h
  simp [PTE_P] at hbit

/-- Mapping `c` pages of device memory sets their entries. -/
theorem mmioMapRegion (h : Booting avail n l g s) {base size v c : Nat}
    (hbase : base = v * PGSIZE) (hsize : ROUNDUP size = c * PGSIZE) (hroom : (v + c) * PGSIZE ≤ MMIOLIM)
    (hown : OwnTables v c) :
  (Jos.mmioMapRegion base 0 size).EndsUnless (n ≤ 1024) s (fun r s' =>
    r = (v * PGSIZE, (v + c) * PGSIZE)
      ∧ To avail n (mapRegion g v c 0 (PTE_P ||| PTE_W ||| PTE_PCD ||| PTE_PWT)) s s')
  := by
  have hpos : 0 < PGSIZE := by decide
  have hv : ROUNDUP base / PGSIZE = v := by
    rw [hbase, ROUNDUP_of_dvd (Nat.dvd_mul_left _ _), Nat.mul_div_cancel _ hpos]
  have hc : ROUNDUP (ROUNDUP size) / PGSIZE = c := by
    rw [hsize, ROUNDUP_of_dvd (Nat.dvd_mul_left _ _), Nat.mul_div_cancel _ hpos]
  have hmap := h.bootMapRegion base (ROUNDUP size) 0
    (PTE_P ||| PTE_W ||| PTE_PCD ||| PTE_PWT) (by rw [hv, hc]; exact hown)
  rw [hv, hc, ROUNDUP_of_dvd (Nat.dvd_zero PGSIZE)] at hmap
  rw [Nat.add_mul] at hroom ⊢
  rw [Jos.mmioMapRegion, if_neg (by rw [hbase, hsize]; omega), Prog.endsUnless_get_bind]
  apply hmap.bind
  intro _ s' h'
  apply Prog.endsUnless_pure.mpr
  refine ⟨?_, h'⟩
  rw [hbase, hsize]

/-- Clearing a present entry clears it. -/
theorem clearEntry (h : Booting avail n l g s) {v : Nat} (hv : v < 2 ^ 20)
    (hne : v / 1024 ≠ UVPTX) (hset : g (v / 1024) (v % 1024) ≠ 0) :
  (Jos.clearEntry (v * PGSIZE)).EndsUnless (n ≤ 1024) s
    (fun _ s' => To avail n (setMap g (v / 1024) (v % 1024) 0) s s')
  := by
  obtain ⟨hd, ht⟩ := PDX_ofNat hv
  have hpte := h.pte (v / 1024) (by omega) hne (v % 1024) (by omega)
  cases hpt : refOf (s.entry s.kernPgdir (v / 1024)) with
  | none =>
      rw [Kernel.kernPte, hpt] at hpte
      exact (hset hpte.symm).elim
  | some pt =>
      have hwalk := h.walk (BitVec.ofNat 32 (v * PGSIZE)) false (by rw [hd]; exact hne)
        (by rw [hd]; exact hpt)
      rw [Jos.clearEntry, Prog.endsUnless_get_bind, Prog.endsUnless_bind_of_eq hwalk, ht]
      apply Prog.endsUnless_modify.mpr
      constructor
      · exact ⟨l, h.setEntry (by omega) hne hpt (by omega) 0⟩
      · exact quiet_setEntry _ _ _ _

/-- After device memory was mapped and cleared the page tables hold no entries again. -/
theorem checkMmio (h : Booting avail n l (fun _ _ => 0) s) :
  Jos.checkMmio.EndsUnless (n ≤ 1024) s (fun _ s' => To avail n (fun _ _ => 0) s s')
  := by
  have hown : ∀ v c, 0xEF800 ≤ v → v + c ≤ 0xEFC00 → OwnTables v c := by
    intro v c hv hc i hi
    simp only [NUPDE, UVPTX]
    omega
  obtain ⟨perm, hperm⟩ : ∃ perm, perm = PTE_P ||| PTE_W ||| PTE_PCD ||| PTE_PWT := ⟨_, rfl⟩
  obtain ⟨g₁, hg₁⟩ : ∃ g₁, g₁ = mapRegion (fun _ _ => 0) 0xEF800 2 0 perm := ⟨_, rfl⟩
  obtain ⟨g₂, hg₂⟩ : ∃ g₂, g₂ = mapRegion g₁ 0xEF802 1 0 perm := ⟨_, rfl⟩
  have hset : ∀ v, 0xEF800 ≤ v → v < 0xEF803 → g₂ (v / 1024) (v % 1024) ≠ 0 := by
    intro v hv hv'
    have hidx : v / 1024 * 1024 + v % 1024 = v := by omega
    rw [hg₂, mapRegion, hidx]
    split
    · exact or_present_ne _
    case isFalse hout =>
      rw [hg₁, mapRegion, hidx, if_pos (by omega)]
      exact or_present_ne _
  have hbase₁ : MMIOBASE = 0xEF800 * PGSIZE := by decide
  have hsize₁ : ROUNDUP 4097 = 2 * PGSIZE := by decide
  have hroom₁ : (0xEF800 + 2) * PGSIZE ≤ MMIOLIM := by decide
  have hown₁ := hown 0xEF800 2 (by decide) (by decide)
  have h₁ := h.mmioMapRegion hbase₁ hsize₁ hroom₁ hown₁
  rw [← hperm, ← hg₁] at h₁
  rw [Jos.checkMmio]
  apply h₁.bind
  rintro r₁ s₁ ⟨hr₁, ⟨l₁, h₁⟩, hq₁⟩
  rw [hr₁]
  have hbase₂ : (0xEF800 + 2) * PGSIZE = 0xEF802 * PGSIZE := by decide
  have hsize₂ : ROUNDUP 4096 = 1 * PGSIZE := by decide
  have hroom₂ : (0xEF802 + 1) * PGSIZE ≤ MMIOLIM := by decide
  have hown₂ := hown 0xEF802 1 (by decide) (by decide)
  have h₂ := h₁.mmioMapRegion hbase₂ hsize₂ hroom₂ hown₂
  rw [← hperm, ← hg₂] at h₂
  apply h₂.bind
  rintro r₂ s₂ ⟨hr₂, ⟨l₂, h₂⟩, hq₂⟩
  rw [hr₂]
  -- the three entries are cleared one after the other
  have h₃ := h₂.clearEntry (v := 0xEF800) (by decide) (by decide) (hset _ (by decide) (by decide))
  apply h₃.bind
  rintro _ s₃ ⟨⟨l₃, h₃⟩, hq₃⟩
  have h₄ := h₃.clearEntry (v := 0xEF801) (by decide) (by decide) (by
    rw [setMap, if_neg (by decide)]
    exact hset _ (by decide) (by decide))
  apply h₄.bind
  rintro _ s₄ ⟨⟨l₄, h₄⟩, hq₄⟩
  have h₅ := h₄.clearEntry (v := 0xEF802) (by decide) (by decide) (by
    rw [setMap, if_neg (by decide), setMap, if_neg (by decide)]
    exact hset _ (by decide) (by decide))
  apply h₅.mono
  rintro _ s₅ ⟨⟨l₅, h₅⟩, hq₅⟩
  refine ⟨⟨l₅, h₅.congr ?_⟩, (((hq₁.trans hq₂).trans hq₃).trans hq₄).trans hq₅⟩
  intro d _ t ht
  rw [setMap, setMap, setMap]
  split
  · rfl
  · split
    · rfl
    · split
      · rfl
      · rw [hg₂, mapRegion, if_neg (by omega), hg₁, mapRegion, if_neg (by omega)]

/-- Mapping the `c` pages from the page number `v` on after other mappings. -/
theorem To.region (h : To avail n g s s') (pa : Nat) (perm : Word) {va size v c : Nat}
    (hva : ROUNDUP va = v * PGSIZE) (hsize : ROUNDUP size = c * PGSIZE) (hown : OwnTables v c) :
  (Jos.bootMapRegion s.kernPgdir va size pa perm).EndsUnless (n ≤ 1024) s'
    (fun _ s'' => To avail n (mapRegion g v c (ROUNDUP pa) perm) s s'')
  := by
  have hpos : 0 < PGSIZE := by decide
  obtain ⟨⟨l, hl⟩, hq⟩ := h
  have hk : s'.kernPgdir = s.kernPgdir := by rw [hq]
  have hv : ROUNDUP va / PGSIZE = v := by rw [hva, Nat.mul_div_cancel _ hpos]
  have hc : ROUNDUP size / PGSIZE = c := by rw [hsize, Nat.mul_div_cancel _ hpos]
  have hmap := hl.bootMapRegion va size pa perm (by rw [hv, hc]; exact hown)
  rw [hv, hc, hk] at hmap
  apply hmap.mono
  intro _ s'' ⟨h'', hq'⟩
  exact ⟨h'', hq.trans hq'⟩

theorem ownTables_upper {v c : Nat} (hv : 0xEF800 ≤ v) (hc : v + c ≤ 2 ^ 20) :
  OwnTables v c
  := by
  intro i hi
  simp only [NUPDE, UVPTX]
  omega

/-- Mapping the stack of the only processor. -/
theorem memInitMp (h : To avail n g s s') (b : BootInfo) :
  (Jos.memInitMp b).EndsUnless (n ≤ 1024) s' (fun _ s'' => To avail n
    (mapRegion g 0xEFFF8 8 (ROUNDUP (PADDR b.percpuKstacks)) (PTE_P ||| PTE_W)) s s'')
  := by
  have hk : s'.kernPgdir = s.kernPgdir := by rw [h.2]
  have hstack : ROUNDUP (KSTACKTOP - 0 * (KSTKSIZE + KSTKGAP) - KSTKSIZE) = 0xEFFF8 * PGSIZE := by
    decide
  have hsize : ROUNDUP KSTKSIZE = 8 * PGSIZE := by decide
  have hown : OwnTables 0xEFFF8 8 := ownTables_upper (by decide) (by decide)
  have hstep := h.region (PADDR (b.percpuKstacks + 0 * KSTKSIZE)) (PTE_P ||| PTE_W)
    hstack hsize hown
  rw [← hk] at hstep
  have hpa : PADDR (b.percpuKstacks + 0 * KSTKSIZE) = PADDR b.percpuKstacks := by
    rw [Nat.zero_mul, Nat.add_zero]
  rw [hpa] at hstep
  have hloop : (Jos.memInitMp b).EndsUnless (n ≤ 1024) s' (fun _ s'' => To avail n
      (mapRegion g 0xEFFF8 8 (ROUNDUP (PADDR b.percpuKstacks)) (PTE_P ||| PTE_W)) s s'') := by
    rw [Jos.memInitMp, NCPU, Prog.forUp]
    apply Prog.EndsUnless.bind (P := fun _ s'' => To avail n
      (mapRegion g 0xEFFF8 8 (ROUNDUP (PADDR b.percpuKstacks)) (PTE_P ||| PTE_W)) s s'')
    · rw [Prog.endsUnless_get_bind, hpa]
      exact hstep
    · intro _ s'' h''
      rw [Prog.forUp, Prog.endsUnless_pure]
      exact h''
  exact hloop

/-- Mapping everything sets the entries `bootMap`, unless there are no pages for the page
tables. -/
theorem memInitMap (h : Booting avail n l (fun _ _ => 0) s) (b : BootInfo) (a : BootArrays) :
  (Jos.memInitMap b a).EndsUnless (n ≤ 1024) s (fun _ s' => To avail n (bootMap b a) s s')
  := by
  have hlow : ∀ v, 0xEEC00 ≤ v → v + 1024 ≤ 0xEF400 → OwnTables v 1024 := by
    intro v hv hv' i hi
    simp only [NUPDE, UVPTX]
    omega
  have hpages : ROUNDUP UPAGES = 0xEF000 * PGSIZE := by decide
  have henvs : ROUNDUP UENVS = 0xEEC00 * PGSIZE := by decide
  have hsize : ROUNDUP PTSIZE = 1024 * PGSIZE := by decide
  have hstack : ROUNDUP (KSTACKTOP - KSTKSIZE) = 0xEFFF8 * PGSIZE := by decide
  have hstksize : ROUNDUP KSTKSIZE = 8 * PGSIZE := by decide
  have hbase : ROUNDUP KERNBASE = 0xF0000 * PGSIZE := by decide
  have hrest : ROUNDUP (0xFFFFFFFF - KERNBASE) = 65536 * PGSIZE := by decide
  have hzero : ROUNDUP 0 = 0 := by decide
  have hstackOwn : OwnTables 0xEFFF8 8 := ownTables_upper (by decide) (by decide)
  have hbaseOwn : OwnTables 0xF0000 65536 := ownTables_upper (by decide) (by decide)
  have h0 : To avail n (fun _ _ => 0) s s := ⟨⟨l, h⟩, Quiet.refl s⟩
  rw [Jos.memInitMap, Prog.endsUnless_get_bind]
  apply (h0.region _ _ hpages hsize (hlow _ (by decide) (by decide))).bind
  intro _ s₁ h₁
  apply (h₁.region _ _ henvs hsize (hlow _ (by decide) (by decide))).bind
  intro _ s₂ h₂
  apply (h₂.region _ _ hstack hstksize hstackOwn).bind
  intro _ s₃ h₃
  apply (memInitMp h₃ b).bind
  intro _ s₄ h₄
  have h₅ := h₄.region 0 (PTE_P ||| PTE_W) hbase hrest hbaseOwn
  rw [hzero] at h₅
  exact h₅

/-! ### The self-tests -/

/-- The self-tests keep what holds at boot. -/
theorem selfTested (h : Booting avail n l g s) (ht : SelfTested s s') :
  ∃ l', Booting avail n l' g s'
  := by
  obtain ⟨l₁, l', hc₁, hc', hperm, hfree, hrest⟩ := ht.lists
  obtain rfl : l₁ = l := Chain.unique hc₁ h.mem.chain
  have hk : s'.kernPgdir = s.kernPgdir := by rw [ht.quiet]
  have hn : s'.npages = s.npages := by rw [ht.quiet]
  have hentry : ∀ r, r ∉ l₁ → ∀ i < 1024, s'.entry r i = s.entry r i := by
    intro r hr i hi
    apply Bytes.read32_congr
    intro o ho ho'
    have hmem := (hrest r hr).2 (o - r * PGSIZE)
    simp only [PGSIZE] at ho ho' hmem
    rw [show r * 4096 + (o - r * 4096) = o by omega] at hmem
    exact hmem (by omega)
  have hkl : s.kernPgdir ∉ l₁ := fun hm => h.mem.kern_notMem (h.mem.refs_free hm).1
  have href : s'.noEnvs.slotRef = s.noEnvs.slotRef := by
    funext x
    cases x with
    | dir e => rw [Kernel.noEnvs_slotRef _ (by simp), Kernel.noEnvs_slotRef _ (by simp)]
    | table e d' => rw [Kernel.noEnvs_slotRef _ (by simp), Kernel.noEnvs_slotRef _ (by simp)]
    | page e d' t' => rw [Kernel.noEnvs_slotRef _ (by simp), Kernel.noEnvs_slotRef _ (by simp)]
    | kern d' =>
        have hkern : s'.noEnvs.slotRef (.kern d')
            = if NUPDE ≤ d'.val ∧ d'.val ≠ UVPTX then refOf (s'.entry s'.kernPgdir d') else none := rfl
        rw [hkern, hk, hentry _ hkl d' d'.isLt]
        rfl
  have hrefs : ∀ p, (s'.noEnvs.pages p).ppRef = (s.noEnvs.pages p).ppRef := by
    intro p
    by_cases hp : p ∈ l₁
    · exact hfree p hp
    · exact congrArg PageInfo.ppRef (hrest p hp).1
  use l'
  constructor
  case mem =>
    have hb := h.mem.balanced
    constructor
    case chain => exact hc'
    case unlinked =>
      intro p hp hpl
      have hpl₁ : p ∉ l₁ := fun hm => hpl (hperm.mem_iff.mpr hm)
      have hpage : s'.pages p = s.pages p := (hrest p hpl₁).1
      change (s'.pages p).ppLink = none
      rw [hpage]
      exact h.mem.unlinked p hp hpl₁
    case balanced =>
      have htotal : ∀ p, (s'.noEnvs.store l' ∅ (fun _ => 0)).total slots p
          = (s.noEnvs.store l₁ ∅ (fun _ => 0)).total slots p := by
        intro p
        simp only [Store.total, Kernel.store, href]
      constructor
      case counted =>
        intro p hp
        rw [htotal]
        exact (hrefs p).trans (hb.counted p hp)
      case nodup => exact hperm.nodup_iff.mpr hb.nodup
      case mem_free =>
        intro p
        rw [htotal]
        exact hperm.mem_iff.trans (hb.mem_free p)
      case held_avail => exact hb.held_avail
      case held_total =>
        intro p hp
        cases hp
      case mem_slots =>
        intro x p _
        exact mem_slots x
      case ref_avail =>
        intro x p hx
        apply hb.ref_avail x p
        change s.noEnvs.slotRef x = some p
        rw [← href]
        exact hx
      case own_avail => exact hb.own_avail
      case owned =>
        intro x y p ho hx hy
        change s'.noEnvs.slotRef x = some p at hx
        change s'.noEnvs.slotRef y = some p at hy
        rw [href] at hx hy
        exact hb.owned x y p ho hx hy
    case avail_lt =>
      intro p hp
      change p < s'.npages
      rw [hn]
      exact h.mem.avail_lt p hp
    case npages_le =>
      change s'.npages ≤ 2 ^ 20
      rw [hn]
      exact h.mem.npages_le
    case kern_notMem =>
      change s'.kernPgdir ∉ avail
      rw [hk]
      exact h.mem.kern_notMem
  case kern_lt =>
    rw [hk, hn]
    exact h.kern_lt
  case uvpt =>
    rw [hk, hentry _ hkl UVPTX (by decide)]
    exact h.uvpt
  case pde =>
    intro d hd hne
    rw [hk, hentry _ hkl d hd]
    exact h.pde d hd hne
  case pte =>
    intro d hd hne t ht'
    rw [← h.pte d hd hne t ht', Kernel.kernPte, Kernel.kernPte, hk, hentry _ hkl d hd]
    cases hpt : refOf (s.entry s.kernPgdir d) with
    | none => rfl
    | some pt =>
        obtain ⟨hx, -, -⟩ := h.table hd hne hpt
        exact hentry pt (h.mem.mapped_notMem hx) t ht'
  case count =>
    have htab : s'.noEnvs.kernTables = s.noEnvs.kernTables := by
      rw [Kernel.kernTables, Kernel.kernTables, href]
    rw [htab, hperm.length_eq]
    exact h.count

end Booting

/-! ### The first free pages -/

/-- Where the arrays lie. -/
def BootInfo.layout (b : BootInfo) : BootArrays where
  pages := ROUNDUP b.kernEnd + PGSIZE
  envs := ROUNDUP b.kernEnd + PGSIZE + ROUNDUP (b.npages * sizeofPageInfo)
  nextfree := ROUNDUP b.kernEnd + PGSIZE + ROUNDUP (b.npages * sizeofPageInfo)
    + ROUNDUP (NENV * sizeofEnv)

/-- The pages handed to the page allocator. -/
def bootPages (b : BootInfo) : Finset Nat :=
  (Finset.range b.npages).filter (fun p => p ≠ MPENTRY_PADDR / PGSIZE
    ∧ ((1 ≤ p ∧ p < b.npagesBasemem) ∨ firstExtPage b.layout.nextfree ≤ p))

/-- From `s` to `s'` the pages `l` were put on the free list. -/
structure FirstFree (l : List Nat) (s s' : Kernel) : Prop where
  quiet : s' = { s with pages := s'.pages, pageFreeList := s'.pageFreeList }
  chain : Chain (fun p => (s'.pages p).ppLink) s'.pageFreeList l
  nodup : l.Nodup
  ref : ∀ p ∈ l, (s'.pages p).ppRef = 0

/-- Putting the pages from `lo` on the free list, which has only pages before. -/
theorem pageInit_loop {E : Prop} {l : List Nat} {s s' : Kernel} (h : FirstFree l s s') {lo : Nat}
    (hlo : ∀ p ∈ l, p < lo) (n : Nat) :
  (Prog.forUp lo n pageInitOne).EndsUnless E s' (fun _ s'' => ∃ l', FirstFree l' s s''
    ∧ ∀ p, p ∈ l' ↔ p ∈ l ∨ (lo ≤ p ∧ p < lo + n ∧ p ≠ MPENTRY_PADDR / PGSIZE))
  := by
  apply Prog.EndsUnless.forUp (fun i s'' => ∃ l', FirstFree l' s s''
    ∧ ∀ p, p ∈ l' ↔ p ∈ l ∨ (lo ≤ p ∧ p < i ∧ p ≠ MPENTRY_PADDR / PGSIZE))
  · intro i s₁ hi hi' ⟨l₁, h₁, hmem⟩
    rw [pageInitOne]
    by_cases hmp : i ≠ MPENTRY_PADDR / PGSIZE
    · rw [if_pos hmp]
      have hnot : i ∉ l₁ := by
        rw [hmem]
        rintro (hl | ⟨-, hlt, -⟩)
        · have := hlo i hl
          omega
        · omega
      apply Prog.endsUnless_modify.mpr
      refine ⟨i :: l₁, ?_, ?_⟩
      · constructor
        case quiet => rw [h₁.quiet]; rfl
        case chain =>
          apply (h₁.chain.push hnot).congr
          intro p _
          by_cases hp : p = i
          · simp only [Kernel.setPage, hp, Function.update_self]
          · simp only [Kernel.setPage, Function.update_of_ne hp]
        case nodup => exact List.nodup_cons.mpr ⟨hnot, h₁.nodup⟩
        case ref =>
          intro p hp
          by_cases hpi : p = i
          · simp only [Kernel.setPage, hpi, Function.update_self]
          · simp only [Kernel.setPage, Function.update_of_ne hpi]
            exact h₁.ref p ((List.mem_cons.mp hp).resolve_left hpi)
      · intro p
        rw [List.mem_cons, hmem]
        by_cases hpi : p = i
        · subst hpi
          simp only [true_or, true_iff]
          right
          exact ⟨hi, by omega, hmp⟩
        · constructor
          · rintro (hp | hp | ⟨h1, h2, h3⟩)
            · exact (hpi hp).elim
            · left
              exact hp
            · right
              exact ⟨h1, by omega, h3⟩
          · rintro (hp | ⟨h1, h2, h3⟩)
            · right
              left
              exact hp
            · right
              right
              exact ⟨h1, by omega, h3⟩
    · rw [if_neg hmp]
      apply Prog.endsUnless_pure.mpr
      refine ⟨l₁, h₁, ?_⟩
      intro p
      rw [hmem]
      have himp : i = MPENTRY_PADDR / PGSIZE := not_not.mp hmp
      constructor
      · rintro (hp | ⟨h1, h2, h3⟩)
        · left
          exact hp
        · right
          exact ⟨h1, by omega, h3⟩
      · rintro (hp | ⟨h1, h2, h3⟩)
        · left
          exact hp
        · right
          exact ⟨h1, by omega, h3⟩
  · refine ⟨l, h, ?_⟩
    intro p
    constructor
    · intro hp
      left
      exact hp
    · rintro (hp | ⟨h1, h2, -⟩)
      · exact hp
      · omega

/-- `page_init` frees the pages it should, when base memory ends before the kernel. -/
theorem pageInit_ok {E : Prop} {s : Kernel} (hnone : s.pageFreeList = none) {basemem freeMem : Nat}
    (hbase : basemem ≤ firstExtPage freeMem) :
  (pageInit basemem freeMem).EndsUnless E s (fun _ s' => ∃ l, FirstFree l s s'
    ∧ ∀ p, p ∈ l ↔ p ≠ MPENTRY_PADDR / PGSIZE
      ∧ ((1 ≤ p ∧ p < basemem) ∨ (firstExtPage freeMem ≤ p ∧ p < s.npages)))
  := by
  have h0 : FirstFree [] s s := by
    constructor
    case quiet => rfl
    case chain => exact hnone
    case nodup => exact List.nodup_nil
    case ref =>
      intro p hp
      cases hp
  have hlo : ∀ p ∈ ([] : List Nat), p < 1 := by
    intro p hp
    cases hp
  rw [pageInit]
  apply (pageInit_loop h0 hlo (basemem - 1)).bind
  intro _ s₁ ⟨l₁, h₁, hmem₁⟩
  have hn : s₁.npages = s.npages := by rw [h₁.quiet]
  rw [Prog.endsUnless_get_bind, hn]
  have hlt : ∀ p ∈ l₁, p < firstExtPage freeMem := by
    intro p hp
    obtain hp | ⟨hge, hp, -⟩ := (hmem₁ p).mp hp
    · cases hp
    · omega
  apply (pageInit_loop h₁ hlt (s.npages - firstExtPage freeMem)).mono
  intro _ s₂ ⟨l₂, h₂, hmem₂⟩
  refine ⟨l₂, h₂, ?_⟩
  intro p
  rw [hmem₂, hmem₁]
  constructor
  · rintro ((hp | ⟨h1, h2, h3⟩) | ⟨h1, h2, h3⟩)
    · cases hp
    · exact ⟨h3, Or.inl ⟨h1, by omega⟩⟩
    · exact ⟨h3, Or.inr ⟨h1, by omega⟩⟩
  · rintro ⟨h3, ⟨h1, h2⟩ | ⟨h1, h2⟩⟩
    · left
      right
      exact ⟨h1, by omega, h3⟩
    · right
      exact ⟨h1, by omega, h3⟩

/-! ### The arrays -/

/-- Memory behind `nextfree` is taken, unless the limit is reached. -/
theorem bootAlloc_bind {α : Type} {E : Prop} {nextfree n : Nat} {s : Kernel}
    {f : Nat × Nat → Prog Kernel α} {Q : α → Kernel → Prop}
    (hE : 0xF0400000 < nextfree + ROUNDUP n → E)
    (h : (f (nextfree, nextfree + ROUNDUP n)).EndsUnless E s Q) :
  (bootAlloc nextfree n >>= f).EndsUnless E s Q
  := by
  rw [bootAlloc]
  by_cases hn : 0 < n
  · rw [if_pos hn]
    by_cases hlim : nextfree + ROUNDUP n > 0xF0400000
    · rw [if_pos hlim, Prog.endsUnless_panic_bind]
      exact hE hlim
    · rw [if_neg hlim, Prog.endsUnless_pure_bind]
      exact h
  · rw [if_neg hn, Prog.endsUnless_pure_bind]
    obtain rfl : n = 0 := by omega
    exact h

/-- What `mem_init` has set up when `page_init` is done: an empty page directory, and the
pages that are left on the free list. -/
structure ArraysDone (b : BootInfo) (s₀ s : Kernel) : Prop where
  npages : s.npages = b.npages
  kernPgdir : s.kernPgdir = PADDR (ROUNDUP b.kernEnd) / PGSIZE
  curenv : s.curenv = s₀.curenv
  uvpt : s.entry s.kernPgdir UVPTX = page2pa s.kernPgdir ||| PTE_U ||| PTE_P
  zero : ∀ d < 1024, d ≠ UVPTX → s.entry s.kernPgdir d = 0
  free : ∃ l, Chain (fun p => (s.pages p).ppLink) s.pageFreeList l ∧ l.Nodup
    ∧ (∀ p ∈ l, (s.pages p).ppRef = 0) ∧ ∀ p, p ∈ l ↔ p ≠ MPENTRY_PADDR / PGSIZE
      ∧ ((1 ≤ p ∧ p < b.npagesBasemem) ∨ (firstExtPage b.layout.nextfree ≤ p ∧ p < b.npages))

/-- The arrays are allocated, unless the limit of the memory mapped at boot is reached. -/
theorem memInitArrays_ok (b : BootInfo) {s₀ : Kernel} (hnone : s₀.pageFreeList = none)
    (hbase : b.npagesBasemem ≤ IOPHYSMEM / PGSIZE) :
  (memInitArrays b).EndsUnless (0xF0400000 < b.layout.nextfree) s₀
    (fun a s => a = b.layout ∧ ArraysDone b s₀ s)
  := by
  have hpg : ROUNDUP PGSIZE = PGSIZE := by decide
  have hle : ROUNDUP b.kernEnd + PGSIZE + ROUNDUP (b.npages * sizeofPageInfo)
      + ROUNDUP (NENV * sizeofEnv) = b.layout.nextfree := rfl
  rw [memInitArrays]
  apply Prog.endsUnless_modify_bind.mpr
  apply bootAlloc_bind
  · rw [hpg]
    omega
  rw [hpg]
  apply Prog.endsUnless_modify_bind.mpr
  apply Prog.endsUnless_modify_bind.mpr
  apply bootAlloc_bind
  · omega
  apply Prog.endsUnless_modify_bind.mpr
  apply bootAlloc_bind
  · omega
  simp only
  rw [hle]
  obtain ⟨pg, hpg⟩ : ∃ pg, pg = PADDR (ROUNDUP b.kernEnd) / PGSIZE := ⟨_, rfl⟩
  rw [← hpg]
  obtain ⟨s₁, hs₁⟩ : ∃ s₁ : Kernel, s₁ = { ({ ({ s₀ with npages := b.npages } : Kernel).zeroPage pg
      with kernPgdir := pg } : Kernel).setEntry pg (PDX (BitVec.ofNat 32 UVPT))
        (page2pa pg ||| PTE_U ||| PTE_P) with
      pages := fun p => if p < b.npages then {} else s₀.pages p } := ⟨_, rfl⟩
  have hnone₁ : s₁.pageFreeList = none := by
    rw [hs₁]
    exact hnone
  have hn₁ : s₁.npages = b.npages := by rw [hs₁]; rfl
  have hk₁ : s₁.kernPgdir = pg := by rw [hs₁]; rfl
  have hcur₁ : s₁.curenv = s₀.curenv := by rw [hs₁]; rfl
  have hentry₁ : ∀ d < 1024, s₁.entry pg d
      = if d = UVPTX then page2pa pg ||| PTE_U ||| PTE_P else 0 := by
    intro d hd
    have hmem : s₁.entry pg d = (({ ({ s₀ with npages := b.npages } : Kernel).zeroPage pg
        with kernPgdir := pg } : Kernel).setEntry pg (PDX (BitVec.ofNat 32 UVPT))
          (page2pa pg ||| PTE_U ||| PTE_P)).entry pg d := by
      rw [hs₁]
      rfl
    rw [hmem, PDX_UVPT]
    by_cases hu : d = UVPTX
    · rw [hu, if_pos rfl, Kernel.entry_setEntry]
    · rw [if_neg hu, Kernel.entry_setEntry_of_ne _ _ (by decide) hd (Or.inr hu)]
      exact Kernel.entry_zeroPage _ hd
  have hfirst : b.npagesBasemem ≤ firstExtPage b.layout.nextfree := by
    have h160 : IOPHYSMEM / PGSIZE = 160 := by decide
    rw [firstExtPage_eq]
    exact Nat.le_trans (by omega) (Nat.le_add_right 256 _)
  have hinit := pageInit_ok (E := 0xF0400000 < b.layout.nextfree) hnone₁ hfirst
  rw [hs₁] at hinit
  apply hinit.bind
  rw [← hs₁]
  intro _ s₂ ⟨l, hl, hmem⟩
  apply Prog.endsUnless_pure.mpr
  have hk₂ : s₂.kernPgdir = pg := by rw [hl.quiet]; exact hk₁
  have hentry₂ : ∀ d, s₂.entry pg d = s₁.entry pg d := by
    intro d
    rw [hl.quiet]
    rfl
  refine ⟨rfl, ?_⟩
  constructor
  case npages =>
    rw [hl.quiet]
    exact hn₁
  case kernPgdir => rw [hk₂, hpg]
  case curenv =>
    rw [hl.quiet]
    exact hcur₁
  case uvpt => rw [hk₂, hentry₂, hentry₁ UVPTX (by decide), if_pos rfl]
  case zero =>
    intro d hd hu
    rw [hk₂, hentry₂, hentry₁ d hd, if_neg hu]
  case free =>
    refine ⟨l, hl.chain, hl.nodup, hl.ref, ?_⟩
    intro p
    rw [hmem, hn₁]

/-- The pages of the kernel directory and of the arrays come before the free ones. -/
theorem layout_lt (b : BootInfo) :
  PADDR (ROUNDUP b.kernEnd) / PGSIZE + 1 + 31 ≤ PADDR b.layout.nextfree / PGSIZE
    ∧ 256 ≤ PADDR (ROUNDUP b.kernEnd) / PGSIZE
  := by
  have hge := b.kernEnd_ge
  have hround := le_ROUNDUP b.kernEnd
  obtain ⟨k, hk⟩ := ROUNDUP_dvd b.kernEnd
  obtain ⟨m, hm⟩ := ROUNDUP_dvd (b.npages * sizeofPageInfo)
  have henv : ROUNDUP (NENV * sizeofEnv) = 31 * PGSIZE := by decide
  simp only [BootInfo.layout, henv, hm, PADDR]
  rw [hk] at hround ⊢
  simp only [KERNBASE, EXTPHYSMEM, PGSIZE] at hge hround ⊢
  omega

/-- When the arrays are set up all free pages are counted, and no page table is there yet. -/
theorem ArraysDone.booting {b : BootInfo} {s₀ s : Kernel} (h : ArraysDone b s₀ s)
    (hc : FreeListChecked b b.layout) :
  ∃ l, Booting (bootPages b) l.length l (fun _ _ => 0) s ∧ ∀ p, p ∈ l ↔ p ∈ bootPages b
  := by
  obtain ⟨l, hchain, hnodup, href, hmem⟩ := h.free
  obtain ⟨hlay, h256⟩ := layout_lt b
  have hbase := hc.basemem
  have hext := hc.extmem
  have hfirst := firstExtPage_eq b.layout.nextfree
  have h160 : IOPHYSMEM / PGSIZE = 160 := by decide
  have hmem' : ∀ p, p ∈ l ↔ p ∈ bootPages b := by
    intro p
    rw [hmem, bootPages, Finset.mem_filter, Finset.mem_range]
    constructor
    · rintro ⟨h1, h2 | ⟨h2, h3⟩⟩
      · exact ⟨by omega, h1, Or.inl h2⟩
      · exact ⟨h3, h1, Or.inr h2⟩
    · rintro ⟨h3, h1, h2 | h2⟩
      · exact ⟨h1, Or.inl h2⟩
      · exact ⟨h1, Or.inr ⟨h2, h3⟩⟩
  have hslot : ∀ x, s.noEnvs.slotRef x = none := by
    intro x
    cases x with
    | dir e => exact Kernel.noEnvs_slotRef _ (by simp)
    | table e d => exact Kernel.noEnvs_slotRef _ (by simp)
    | page e d t => exact Kernel.noEnvs_slotRef _ (by simp)
    | kern d =>
        rw [Kernel.slotRef]
        split
        case isTrue hd =>
          change refOf (s.entry s.kernPgdir d) = none
          rw [h.zero d d.isLt hd.2, refOf_zero]
        case isFalse => rfl
  have htotal : ∀ p, (s.noEnvs.store l ∅ (fun _ => 0)).total slots p = 0 := by
    intro p
    have h0 : s.noEnvs.refs p = 0 := by
      rw [Kernel.refs, refCount.eq_zero_iff]
      intro x _ hx
      rw [hslot] at hx
      cases hx
    rw [Store.total]
    change s.noEnvs.refs p + 0 = 0
    rw [h0]
  refine ⟨l, ?_, hmem'⟩
  constructor
  case mem =>
    constructor
    case chain => exact hchain
    case unlinked =>
      intro p hp hpl
      exact (hpl ((hmem' p).mpr hp)).elim
    case balanced =>
      constructor
      case counted =>
        intro p hp
        rw [htotal]
        exact href p ((hmem' p).mpr hp)
      case nodup => exact hnodup
      case mem_free =>
        intro p
        rw [htotal]
        simp only [and_true]
        constructor
        · intro hp
          exact ⟨(hmem' p).mp hp, Finset.notMem_empty p⟩
        · intro hp
          exact (hmem' p).mpr hp.1
      case held_avail =>
        intro p hp
        cases hp
      case held_total =>
        intro p hp
        cases hp
      case mem_slots =>
        intro x p _
        exact mem_slots x
      case ref_avail =>
        intro x p hx
        have hx' : s.noEnvs.slotRef x = some p := hx
        rw [hslot] at hx'
        cases hx'
      case own_avail =>
        intro p hp
        cases hp
      case owned =>
        intro x y p _ hx
        have hx' : s.noEnvs.slotRef x = some p := hx
        rw [hslot] at hx'
        cases hx'
    case avail_lt =>
      intro p hp
      change p < s.npages
      rw [h.npages]
      exact Finset.mem_range.mp (Finset.mem_filter.mp hp).1
    case npages_le =>
      change s.npages ≤ 2 ^ 20
      rw [h.npages]
      exact b.npages_le
    case kern_notMem =>
      change s.kernPgdir ∉ bootPages b
      rw [h.kernPgdir, bootPages, Finset.mem_filter]
      rintro ⟨-, -, ⟨-, hlt⟩ | hge⟩
      · omega
      · omega
  case kern_lt =>
    rw [h.kernPgdir, h.npages]
    omega
  case uvpt => exact h.uvpt
  case pde =>
    intro d hd hne hsome
    rw [h.zero d hd hne, refOf_zero] at hsome
    exact (hsome rfl).elim
  case pte =>
    intro d hd hne t _
    rw [Kernel.kernPte, h.zero d hd hne, refOf_zero]
  case count =>
    have hempty : s.noEnvs.kernTables = ∅ := by
      apply Finset.filter_eq_empty_iff.mpr
      intro d _
      rw [hslot]
      simp
    rw [hempty]
    rfl

/-! ### The kernel after boot -/

/-- A kernel at boot is what the page allocator expects. -/
theorem Booting.afterMemInit {avail : Finset Nat} {n : Nat} {l : List Nat} {g : Nat → Nat → Word}
    {s : Kernel} (h : Booting avail n l g s) (hcur : s.curenv = none) :
  AfterMemInit avail s
  := by
  have hb := h.mem.balanced
  have hrefs : ∀ p, s.noEnvs.refs p = 0 ∧ (∀ d, s.slotRef (.kern d) ≠ some p)
      ∨ s.noEnvs.refs p = 1 ∧ ∃ d, s.slotRef (.kern d) = some p := by
    intro p
    by_cases hex : ∃ d, s.slotRef (.kern d) = some p
    · right
      refine ⟨?_, hex⟩
      obtain ⟨d, hd⟩ := hex
      have hd' : s.noEnvs.slotRef (.kern d) = some p := hd
      apply refCount.eq_one (mem_slots (.kern d)) hd'
      intro y _ hy
      exact hb.owned (.kern d) y p trivial hd' hy
    · left
      refine ⟨?_, fun d hd => hex ⟨d, hd⟩⟩
      rw [Kernel.refs, refCount.eq_zero_iff]
      intro x _ hx
      cases x with
      | dir e =>
          rw [Kernel.noEnvs_slotRef _ (by simp)] at hx
          cases hx
      | table e d =>
          rw [Kernel.noEnvs_slotRef _ (by simp)] at hx
          cases hx
      | page e d t =>
          rw [Kernel.noEnvs_slotRef _ (by simp)] at hx
          cases hx
      | kern d => exact hex ⟨d, hx⟩
  have hcount : ∀ p ∈ avail, (s.pages p).ppRef = s.noEnvs.refs p := by
    intro p hp
    have hc : (s.pages p).ppRef = s.noEnvs.refs p % 65536 := h.mem.ppRef_eq hp
    rw [hc]
    apply Nat.mod_eq_of_lt
    obtain ⟨h0, -⟩ | ⟨h1, -⟩ := hrefs p
    · rw [h0]
      decide
    · rw [h1]
      decide
  constructor
  case npages_le => exact h.mem.npages_le
  case avail_lt => exact h.mem.avail_lt
  case kern_notMem => exact h.mem.kern_notMem
  case kern_lt => exact h.kern_lt
  case uvpt => exact h.uvpt
  case tables =>
    intro d p hd
    exact hb.ref_avail (.kern d) p hd
  case tables_inj =>
    intro d d' p hd hd'
    exact Slot.kern.inj (hb.owned (.kern d) (.kern d') p trivial hd hd')
  case free =>
    refine ⟨l, h.mem.chain, hb.nodup, ?_, h.mem.unlinked⟩
    intro p
    constructor
    · intro hp
      obtain ⟨ha, -, h0, -⟩ := h.mem.refs_free hp
      exact ⟨ha, (hcount p ha).trans h0⟩
    · rintro ⟨ha, h0⟩
      rw [hcount p ha] at h0
      exact (h.mem.mem_iff p).mpr ⟨ha, h0⟩
  case ref =>
    intro p hp
    rw [hcount p hp]
    exact hrefs p
  case curenv => exact hcur

/-- When `mem_init` returns, the page tables of the kernel hold `bootMap`, and the kernel is
what the page allocator expects. -/
theorem MemInit.booted {b : BootInfo} {a : BootArrays} {s : Kernel} (h : MemInit b a s) :
  a = b.layout ∧ AfterMemInit (bootPages b) s ∧ s.npages = b.npages
    ∧ (∀ d < 1024, d ≠ UVPTX → refOf (s.entry s.kernPgdir d) ≠ none →
      ∃ p < 2 ^ 20, s.entry s.kernPgdir d = tableEntry p)
    ∧ ∀ d < 1024, d ≠ UVPTX → ∀ t < 1024, s.kernPte d t = bootMap b a d t
  := by
  obtain ⟨s₀, s₁, s₂, s₃, s₄, hnone, hcur, harr, htest, hmmio, hmap, htest'⟩ := h.run
  obtain ⟨rfl, hdone⟩ := (memInitArrays_ok b hnone h.checked.basemem).of_eq harr
  obtain ⟨l, hl, -⟩ := hdone.booting h.checked
  obtain ⟨l₂, h₂⟩ := hl.selfTested htest
  obtain ⟨⟨l₃, h₃⟩, hq₃⟩ := h₂.checkMmio.of_eq hmmio
  obtain ⟨⟨l₄, h₄⟩, hq₄⟩ := (h₃.memInitMap b b.layout).of_eq hmap
  obtain ⟨l₅, h₅⟩ := h₄.selfTested htest'
  have hq : Quiet s₁ s := ((htest.quiet.trans hq₃).trans hq₄).trans htest'.quiet
  refine ⟨rfl, h₅.afterMemInit ?_, ?_, ?_, h₅.pte⟩
  · rw [hq]
    exact hdone.curenv.trans hcur
  · rw [hq]
    exact hdone.npages
  · intro d hd hne hsome
    exact (h₅.pde d hd hne hsome).2

/-- The self-tests may leave everything as it is. -/
theorem selfTested_refl {s : Kernel} {l : List Nat}
    (h : Chain (fun p => (s.pages p).ppLink) s.pageFreeList l) :
  SelfTested s s
  := by
  constructor
  case quiet => exact Quiet.refl s
  case lists =>
    refine ⟨l, l, h, h, List.Perm.refl l, ?_, ?_⟩
    · intro p _
      rfl
    · intro p _
      exact ⟨rfl, fun _ _ => rfl⟩

/-- With this much memory behind the kernel there are pages for all page tables of the kernel. -/
theorem many_bootPages {b : BootInfo} {l : List Nat} (hmem : ∀ p, p ∈ l ↔ p ∈ bootPages b)
    (hmany : firstExtPage b.layout.nextfree + 1025 ≤ b.npages) :
  ¬ l.length ≤ 1024
  := by
  have hfirst := firstExtPage_eq b.layout.nextfree
  have h7 : MPENTRY_PADDR / PGSIZE = 7 := by decide
  have hsub : (Finset.Ico (firstExtPage b.layout.nextfree) b.npages) ⊆ l.toFinset := by
    intro p hp
    rw [Finset.mem_Ico] at hp
    have h256 : 256 ≤ p := by
      rw [hfirst] at hp
      exact Nat.le_trans (Nat.le_add_right 256 _) hp.1
    rw [List.mem_toFinset, hmem, bootPages, Finset.mem_filter, Finset.mem_range]
    exact ⟨hp.2, by omega, Or.inr hp.1⟩
  have hcard := Finset.card_le_card hsub
  rw [Nat.card_Ico] at hcard
  have := List.toFinset_card_le l
  omega

/-- When the arrays are allocated the kernel is as at boot, with many free pages, when there is
enough memory. -/
theorem arrays_booting (b : BootInfo) (hc : FreeListChecked b b.layout)
    (hlimit : b.layout.nextfree ≤ 0xF0400000)
    (hmany : firstExtPage b.layout.nextfree + 1025 ≤ b.npages) :
  ∃ s₀ s₁ l, s₀.pageFreeList = none ∧ s₀.curenv = none
    ∧ memInitArrays b s₀ = .ok (b.layout, s₁)
    ∧ Booting (bootPages b) l.length l (fun _ _ => 0) s₁ ∧ ¬ l.length ≤ 1024
  := by
  obtain ⟨s₀, hs₀⟩ : ∃ s₀ : Kernel, s₀ = { npages := 0, kernPgdir := 0 } := ⟨_, rfl⟩
  have hnone : s₀.pageFreeList = none := by rw [hs₀]
  have hcur : s₀.curenv = none := by rw [hs₀]
  obtain ⟨a, s₁, harr, rfl, hdone⟩ :=
    (memInitArrays_ok b hnone hc.basemem).returns (by omega)
  obtain ⟨l, hl, hmem⟩ := hdone.booting hc
  exact ⟨s₀, s₁, l, hnone, hcur, harr, hl, many_bootPages hmem hmany⟩

/-- `mem_init` returns, with pages left, when there is enough memory. -/
theorem memInit_returns (b : BootInfo) (hc : FreeListChecked b b.layout)
    (hlimit : b.layout.nextfree ≤ 0xF0400000)
    (hmany : firstExtPage b.layout.nextfree + 1025 ≤ b.npages) :
  ∃ s, MemInit b b.layout s ∧ s.pageFreeList ≠ none
  := by
  obtain ⟨s₀, s₁, l, hnone, hcur, harr, hl, hn⟩ := arrays_booting b hc hlimit hmany
  obtain ⟨_, s₃, hmmio, ⟨l₃, h₃⟩, hq₃⟩ := hl.checkMmio.returns hn
  obtain ⟨_, s₄, hmap, ⟨l₄, h₄⟩, hq₄⟩ := (h₃.memInitMap b b.layout).returns hn
  use s₄
  constructor
  · constructor
    case checked => exact hc
    case run =>
      exact ⟨s₀, s₁, s₁, s₃, s₄, hnone, hcur, harr, selfTested_refl hl.mem.chain, hmmio, hmap,
        selfTested_refl h₄.mem.chain⟩
  · have hcount := h₄.count
    have hle := s₄.noEnvs.kernTables_le
    intro hlist
    have hnil := h₄.mem.pageFreeList_eq_none.mp hlist
    rw [hnil, List.length_nil] at hcount
    omega

end Jos
