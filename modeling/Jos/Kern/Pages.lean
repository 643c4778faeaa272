import Jos.Kern.Slots

/-!
# The page allocator keeps its pages

Each operation of the page allocator and of the page tables keeps `MemInv`, returns
without a panic, and has the effect on page table entries that its caller asked for.

The effect of an operation on address spaces is an `Edit`: which entries of page tables
it changes, that it changes directories only by adding page tables, and that it changes
neither the contents of pages that are in use nor the rest of the state.
-/

namespace Jos

open Bytes

/-- The position of a page table entry: the environment and the two indices. -/
abbrev PteAddr : Type := Fin NENV × Fin NUPDE × Fin NPTENTRIES

namespace Kernel

/-- The page table entries below `UTOP` of all environments. -/
def ptes (s : Kernel) (a : PteAddr) : Word :=
  s.pte a.1 a.2.1 a.2.2

/-- A page that may be mapped: it is held, or mapped already. -/
def Shareable (held : Finset Nat) (s : Kernel) (p : Nat) : Prop :=
  p ∈ held ∨ ∃ y, ¬ Slot.Owns y ∧ s.slotRef y = some p

/-- The state after the free page `p` is taken off the free list and cleared. -/
def taken (s : Kernel) (p : Nat) : Kernel :=
  ({ s with pageFreeList := (s.pages p).ppLink }.setPage p
    { s.pages p with ppLink := none }).zeroPage p

/-- The state after one more reference to the page `p` is counted. -/
def incref (s : Kernel) (p : Nat) : Kernel :=
  s.setPage p { s.pages p with ppRef := ((s.pages p).ppRef + 1) % 65536 }

/-- The state after the unreferenced page `p` is put on the free list. -/
def freed (s : Kernel) (p : Nat) : Kernel :=
  { s.setPage p { s.pages p with ppLink := s.pageFreeList } with pageFreeList := some p }

/-- The state after one reference less to the page `p` is counted. -/
def decref (s : Kernel) (p : Nat) : Kernel :=
  let s' := s.setPage p { s.pages p with ppRef := ((s.pages p).ppRef + 65535) % 65536 }
  if (s'.pages p).ppRef = 0 then s'.freed p else s'

end Kernel

/-- Everything but memory, page structures and the list of free pages is the same. -/
def Quiet (s s' : Kernel) : Prop :=
  s' = { s with mem := s'.mem, pages := s'.pages, pageFreeList := s'.pageFreeList }

namespace Quiet

variable {s s' s'' : Kernel}

theorem refl (s : Kernel) :
  Quiet s s
  := rfl

theorem trans (h : Quiet s s') (h' : Quiet s' s'') :
  Quiet s s''
  := by
  rw [Quiet, h', h]

theorem envs (h : Quiet s s') :
  s'.envs = s.envs
  := by rw [h]

theorem npages (h : Quiet s s') :
  s'.npages = s.npages
  := by rw [h]

theorem kernPgdir (h : Quiet s s') :
  s'.kernPgdir = s.kernPgdir
  := by rw [h]

theorem curenv (h : Quiet s s') :
  s'.curenv = s.curenv
  := by rw [h]

theorem envFreeList (h : Quiet s s') :
  s'.envFreeList = s.envFreeList
  := by rw [h]

theorem pgdir (h : Quiet s s') (e : Nat) :
  s'.pgdir e = s.pgdir e
  := by
  rw [Kernel.pgdir, Kernel.pgdir, h.envs]

end Quiet

/-- The change from `s` to `s'` of page table entries to `f`. -/
structure Edit (held : Finset Nat) (s s' : Kernel) (f : PteAddr → Word) : Prop where
  quiet : Quiet s s'
  ptes : s'.ptes = f
  pde : ∀ (e : Fin NENV) (d : Fin NUPDE), s'.pde e d = s.pde e d ∨
    (refOf (s.pde e d) = none ∧ ∃ p < 2 ^ 20, s'.pde e d = tableEntry p)
  upper : ∀ (e : Fin NENV) d, NUPDE ≤ d → d < 1024 → s'.pde e d = s.pde e d
  kern : ∀ d < 1024, s'.entry s.kernPgdir d = s.entry s.kernPgdir d
  keeps : ∀ q, s.Shareable held q → ∀ o < PGSIZE, s'.mem (q * PGSIZE + o) = s.mem (q * PGSIZE + o)

/-! ### The page structures -/

section Pages

variable {avail held : Finset Nat} {own : Nat → Nat} {l : List Nat} {s s' : Kernel}

theorem KADDR_eq {pa : Word} (h : PGNUM pa < s.npages) :
  KADDR pa s = .ok (PGNUM pa, s)
  := by
  rw [KADDR, Prog.get_bind, if_neg (by omega)]
  rfl

theorem pa2page_eq {pa : Word} (h : PGNUM pa < s.npages) :
  pa2page pa s = .ok (PGNUM pa, s)
  := by
  rw [pa2page, Prog.get_bind, if_neg (by omega)]
  rfl

theorem pageAlloc_eq_none (h : s.pageFreeList = none) :
  pageAlloc s = .ok (none, s)
  := by
  rw [pageAlloc, Prog.get_bind]
  simp only [h]
  rfl

theorem pageAlloc_eq_some {p : Nat} (h : s.pageFreeList = some p) (hp : p < s.npages)
    (hn : s.npages ≤ 2 ^ 20) :
  pageAlloc s = .ok (some p, s.taken p)
  := by
  have hpa : PGNUM (page2pa p) = p := PGNUM_page2pa (by omega)
  rw [pageAlloc, Prog.get_bind]
  simp only [h]
  rw [Prog.set_bind, page2kva, Prog.bind_of_eq (KADDR_eq _), hpa, Prog.modify_bind]
  · rfl
  · rw [hpa]
    apply hp

theorem pageIncref_eq (p : Nat) :
  pageIncref p s = .ok ((), s.incref p)
  := rfl

theorem pageFree_eq {p : Nat} (href : (s.pages p).ppRef = 0) (hlink : (s.pages p).ppLink = none) :
  pageFree p s = .ok ((), s.freed p)
  := by
  rw [pageFree, Prog.get_bind, if_neg (not_not.mpr href), if_neg (not_not.mpr hlink)]
  rfl

theorem pageDecref_eq {p : Nat} (hlink : (s.pages p).ppLink = none) :
  pageDecref p s = .ok ((), s.decref p)
  := by
  rw [pageDecref, Prog.modify_bind, Prog.get_bind, Kernel.decref]
  split
  case isTrue h0 =>
    apply pageFree_eq h0
    simp only [Kernel.setPage, Function.update_self]
    apply hlink
  case isFalse h0 => rfl

/-! ### The operations on page structures keep the invariant -/

/-- The invariant depends on the page structures and on what the slots refer to. -/
theorem MemInv.of_store (h : MemInv avail held own l s) {held' : Finset Nat} {own' : Nat → Nat}
    (hpages : s'.pages = s.pages) (hlist : s'.pageFreeList = s.pageFreeList)
    (hn : s'.npages = s.npages) (hkern : s'.kernPgdir = s.kernPgdir)
    (hb : (s'.store l held' own').Balanced slots avail Slot.Owns 65536) :
  MemInv avail held' own' l s'
  := by
  constructor
  case chain =>
    rw [hpages, hlist]
    apply h.chain
  case unlinked =>
    rw [hpages]
    apply h.unlinked
  case balanced => apply hb
  case avail_lt =>
    rw [hn]
    apply h.avail_lt
  case npages_le =>
    rw [hn]
    apply h.npages_le
  case kern_notMem =>
    rw [hkern]
    apply h.kern_notMem

/-- Changes of memory outside the paging structures keep the invariant. -/
theorem MemInv.same_tables (h : MemInv avail held own l s) (ht : s.SameTables s')
    (hpages : s'.pages = s.pages) (hlist : s'.pageFreeList = s.pageFreeList)
    (hn : s'.npages = s.npages) :
  MemInv avail held own l s'
  := by
  apply h.of_store hpages hlist hn ht.kernPgdir
  rw [show s'.store l held own = s.store l held own by
    rw [Kernel.store, Kernel.store, ht.slotRef, hpages]]
  apply h.balanced

theorem MemInv.pageFreeList_eq_none (h : MemInv avail held own l s) :
  s.pageFreeList = none ↔ l = []
  := by
  have hc := h.chain
  cases l with
  | nil =>
      simp only [Chain] at hc
      simp [hc]
  | cons p l =>
      simp [hc.1]

/-- A free page has no references. -/
theorem MemInv.refs_free (h : MemInv avail held own l s) {p : Nat} (hp : p ∈ l) :
  p ∈ avail ∧ p ∉ held ∧ s.refs p = 0 ∧ own p = 0
  := by
  obtain ⟨ha, hh, h0⟩ := (h.balanced.mem_free p).mp hp
  rw [Store.total] at h0
  simp only [Kernel.store] at h0
  use ha, hh
  rw [Kernel.refs]
  omega

theorem MemInv.taken_sameTables {p : Nat} (h : MemInv avail held own (p :: l) s) :
  s.SameTables (s.taken p)
  := by
  have hp := h.refs_free List.mem_cons_self
  have ht : s.SameTables (({ s with pageFreeList := (s.pages p).ppLink }.setPage p
      { s.pages p with ppLink := none })) := Kernel.SameTables.of_mem rfl rfl rfl
  constructor
  case envs => rfl
  case kernPgdir => rfl
  case entry =>
    intro r hr i hi
    apply Kernel.entry_zeroPage_of_ne _ hi
    rintro rfl
    apply Kernel.not_isTable h hp.1 hp.2.2.1 hr

/-- Taking the first free page keeps the invariant. -/
theorem MemInv.taken {p : Nat} (h : MemInv avail held own (p :: l) s) :
  MemInv avail (insert p held) own l (s.taken p)
  := by
  have hpl := List.nodup_cons.mp h.balanced.nodup
  constructor
  case chain =>
    apply h.chain.2.congr
    intro q hq
    simp only [Kernel.taken, Kernel.zeroPage, Kernel.setPage]
    rw [Function.update_of_ne]
    rintro rfl
    apply hpl.1 hq
  case unlinked =>
    intro q ha hq
    simp only [Kernel.taken, Kernel.zeroPage, Kernel.setPage]
    by_cases hqp : q = p
    · rw [hqp, Function.update_self]
    · rw [Function.update_of_ne hqp]
      apply h.unlinked q ha
      simp [hqp, hq]
  case balanced =>
    have hb := h.balanced.take (p := p) (l := l) rfl
    rw [show (s.taken p).store l (insert p held) own = (s.store (p :: l) held own).take p l by
      rw [Kernel.store, h.taken_sameTables.slotRef]
      simp only [Store.take, Kernel.store, Store.mk.injEq, and_true, true_and]
      funext q
      simp only [Kernel.taken, Kernel.zeroPage, Kernel.setPage]
      by_cases hqp : q = p
      · rw [hqp, Function.update_self]
      · rw [Function.update_of_ne hqp]]
    apply hb
  case avail_lt => apply h.avail_lt
  case npages_le => apply h.npages_le
  case kern_notMem => apply h.kern_notMem

/-- The words of a page just taken are zero. -/
theorem entry_taken (p : Nat) {i : Nat} (hi : i < 1024) :
  (s.taken p).entry p i = 0
  := Kernel.entry_zeroPage _ hi

/-- Counting one more reference to a page that is not free keeps the invariant. -/
theorem MemInv.incref {p : Nat} (h : MemInv avail held own l s) (hpa : p ∈ avail) (hpl : p ∉ l) :
  MemInv avail (held.erase p) (Function.update own p (own p + 1)) l (s.incref p)
  := by
  have hlink : ∀ q, ((s.incref p).pages q).ppLink = (s.pages q).ppLink := by
    intro q
    simp only [Kernel.incref, Kernel.setPage]
    by_cases hqp : q = p
    · rw [hqp, Function.update_self]
    · rw [Function.update_of_ne hqp]
  constructor
  case chain =>
    apply h.chain.congr
    intro q _
    apply hlink
  case unlinked =>
    intro q
    rw [hlink]
    apply h.unlinked
  case balanced =>
    have hb := h.balanced.retain hpa hpl
    rw [show (s.incref p).store l (held.erase p) (Function.update own p (own p + 1))
        = (s.store l held own).retain 65536 p by
      simp only [Store.retain, Kernel.store, Store.mk.injEq, and_true]
      constructor
      · rfl
      · funext q
        simp only [Kernel.incref, Kernel.setPage]
        by_cases hqp : q = p
        · rw [hqp, Function.update_self, Function.update_self]
        · rw [Function.update_of_ne hqp, Function.update_of_ne hqp]]
    apply hb
  case avail_lt => apply h.avail_lt
  case npages_le => apply h.npages_le
  case kern_notMem => apply h.kern_notMem

/-- A page whose last reference is given up goes to the head of the free list. -/
theorem decref_eq_freed {p : Nat} (h0 : ((s.pages p).ppRef + 65535) % 65536 = 0) :
  s.decref p =
    { s with pages := Function.update s.pages p ⟨s.pageFreeList, 0⟩, pageFreeList := some p }
  := by
  simp only [Kernel.decref, Kernel.setPage, Function.update_self, h0, if_true, Kernel.freed,
    Function.update_idem]

/-- A page with other references stays off the free list. -/
theorem decref_eq_setPage {p c : Nat} (hc : ((s.pages p).ppRef + 65535) % 65536 = c)
    (h0 : c ≠ 0) :
  s.decref p = { s with pages := Function.update s.pages p ⟨(s.pages p).ppLink, c⟩ }
  := by
  simp only [Kernel.decref, Kernel.setPage, Function.update_self, hc, h0, if_false]

theorem decref_quiet (p : Nat) :
  Quiet s (s.decref p) ∧ (s.decref p).mem = s.mem
  := by
  by_cases h0 : ((s.pages p).ppRef + 65535) % 65536 = 0
  · rw [decref_eq_freed h0]
    constructor
    · rfl
    · rfl
  · rw [decref_eq_setPage rfl h0]
    constructor
    · rfl
    · rfl

theorem decref_sameTables (p : Nat) :
  s.SameTables (s.decref p)
  := by
  obtain ⟨hq, hm⟩ := decref_quiet (s := s) p
  apply Kernel.SameTables.of_mem hq.envs hq.kernPgdir hm

theorem decref_setEntry (p q i : Nat) (w : Word) :
  (s.decref p).setEntry q i w = (s.setEntry q i w).decref p
  := by
  by_cases h0 : ((s.pages p).ppRef + 65535) % 65536 = 0
  · rw [decref_eq_freed h0, decref_eq_freed (s := s.setEntry q i w) h0]
    rfl
  · rw [decref_eq_setPage rfl h0, decref_eq_setPage (s := s.setEntry q i w) rfl h0]
    rfl

/-- Giving up a counted reference keeps the invariant. -/
theorem MemInv.decref {p : Nat} (h : MemInv avail held own l s) (hp : 0 < own p)
    (hfits : s.refs p + own p ≤ 65536) :
  ∃ l', MemInv avail held (Function.update own p (own p - 1)) l' (s.decref p)
  := by
  have hpa := h.balanced.own_avail p hp
  have hb := h.balanced.release hp hfits
  have hpl : p ∉ l := by
    intro hpl
    have := (h.refs_free hpl).2.2.2
    omega
  obtain ⟨hq, -⟩ := decref_quiet (s := s) p
  have hstore : ∀ l', (s.decref p).pages = (fun q => ⟨((s.decref p).pages q).ppLink,
      ((s.store l held own).release 65536 p).count q⟩) →
      l' = ((s.store l held own).release 65536 p).free →
      (s.decref p).store l' held (Function.update own p (own p - 1))
        = (s.store l held own).release 65536 p := by
    intro l' hc hl'
    rw [Kernel.store, (decref_sameTables p).slotRef, hc, hl']
    simp only [Store.release, Kernel.store]
  have hrest : ∀ l', Chain (fun q => ((s.decref p).pages q).ppLink) (s.decref p).pageFreeList l' →
      (∀ q ∈ avail, q ∉ l' → ((s.decref p).pages q).ppLink = none) →
      (s.decref p).store l' held (Function.update own p (own p - 1))
        = (s.store l held own).release 65536 p →
      MemInv avail held (Function.update own p (own p - 1)) l' (s.decref p) := by
    intro l' hchain hunlinked hs
    constructor
    case chain => apply hchain
    case unlinked => apply hunlinked
    case balanced =>
      rw [hs]
      apply hb
    case avail_lt =>
      rw [hq.npages]
      apply h.avail_lt
    case npages_le =>
      rw [hq.npages]
      apply h.npages_le
    case kern_notMem =>
      rw [hq.kernPgdir]
      apply h.kern_notMem
  by_cases h0 : ((s.pages p).ppRef + 65535) % 65536 = 0
  · use p :: l
    have heq := decref_eq_freed h0
    apply hrest
    · rw [heq]
      apply (h.chain.push hpl).congr
      intro q _
      by_cases hqp : q = p
      · simp only [hqp, Function.update_self]
      · simp only [Function.update_of_ne hqp]
    · rw [heq]
      intro q ha hq
      obtain ⟨hqp, hq⟩ := not_or.mp (fun hm => hq (List.mem_cons.mpr hm))
      simp only [Function.update_of_ne hqp]
      apply h.unlinked q ha hq
    · apply hstore
      · rw [heq]
        funext q
        by_cases hqp : q = p
        · simp only [Store.release, Kernel.store, hqp, Function.update_self, h0]
        · simp only [Store.release, Kernel.store, Function.update_of_ne hqp]
      · simp only [Store.release, Kernel.store, h0, if_true]
  · use l
    have heq := decref_eq_setPage rfl h0
    apply hrest
    · rw [heq]
      apply h.chain.congr
      intro q hql
      simp only
      rw [Function.update_of_ne]
      rintro rfl
      apply hpl hql
    · rw [heq]
      intro q ha hq
      by_cases hqp : q = p
      · simp only [hqp, Function.update_self]
        apply h.unlinked p hpa hpl
      · simp only [Function.update_of_ne hqp]
        apply h.unlinked q ha hq
    · apply hstore
      · rw [heq]
        funext q
        by_cases hqp : q = p
        · simp only [Store.release, Kernel.store, hqp, Function.update_self]
        · simp only [Store.release, Kernel.store, Function.update_of_ne hqp]
      · simp only [Store.release, Kernel.store, h0, if_false]

/-- Putting a held page back on the free list keeps the invariant. -/
theorem MemInv.freed {p : Nat} (h : MemInv avail held own l s) (hp : p ∈ held) :
  MemInv avail (held.erase p) own (p :: l) (s.freed p)
  := by
  have hpl : p ∉ l := fun hf => ((h.balanced.mem_free p).mp hf).2.1 hp
  constructor
  case chain =>
    apply (h.chain.push hpl).congr
    intro q _
    by_cases hqp : q = p
    · simp only [Kernel.freed, Kernel.setPage, hqp, Function.update_self]
    · simp only [Kernel.freed, Kernel.setPage, Function.update_of_ne hqp]
  case unlinked =>
    intro q ha hq
    obtain ⟨hqp, hq⟩ := not_or.mp (fun hm => hq (List.mem_cons.mpr hm))
    simp only [Kernel.freed, Kernel.setPage, Function.update_of_ne hqp]
    apply h.unlinked q ha hq
  case balanced =>
    have hb := h.balanced.giveBack hp
    have ht : s.SameTables (s.freed p) := Kernel.SameTables.of_mem rfl rfl rfl
    rw [show (s.freed p).store (p :: l) (held.erase p) own = (s.store l held own).giveBack p by
      rw [Kernel.store, ht.slotRef]
      simp only [Store.giveBack, Kernel.store, Store.mk.injEq, and_true, true_and]
      funext q
      by_cases hqp : q = p
      · simp only [Kernel.freed, Kernel.setPage, hqp, Function.update_self]
      · simp only [Kernel.freed, Kernel.setPage, Function.update_of_ne hqp]]
    apply hb
  case avail_lt => apply h.avail_lt
  case npages_le => apply h.npages_le
  case kern_notMem => apply h.kern_notMem

/-- A held page has no counted references and is not linked to another page. -/
theorem MemInv.held_page {p : Nat} (h : MemInv avail held own l s) (hp : p ∈ held) :
  (s.pages p).ppRef = 0 ∧ (s.pages p).ppLink = none
  := by
  have hpa := h.balanced.held_avail p hp
  constructor
  · have hc := h.balanced.counted p hpa
    rw [h.balanced.held_total p hp] at hc
    apply hc
  · apply h.unlinked p hpa
    intro hf
    apply ((h.balanced.mem_free p).mp hf).2.1 hp

end Pages

end Jos
