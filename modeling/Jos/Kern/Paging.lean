import Jos.Kern.Mapping
import Mathlib.Data.Finset.Prod
import Mathlib.Data.Fintype.Prod

/-!
# The page tables of a set of directories

The two-level tables of `pgdir_walk`, `page_insert` and `page_remove` for any finite set
of page directories, whether or not environments own them.  The places for references
are the entries below `UTOP` of the directories and of their page tables.

To the page allocator these references are references of the running code.  `Paging`
says that the allocator counts them, and that each page table belongs to one directory
entry, so that a store to an entry changes the translation of one page only.
-/

namespace Jos

open Bytes

/-- The places that hold references to pages: entries of directories, and entries of
their page tables. -/
inductive Place where
  | table (pg : Nat) (d : Fin NUPDE)
  | page (pg : Nat) (d : Fin NUPDE) (t : Fin NPTENTRIES)
  deriving DecidableEq

/-- The directory a place belongs to. -/
def Place.dir : Place → Nat
  | table pg _ => pg
  | page pg _ _ => pg

/-- The places of the directories `D`. -/
def places (D : Finset Nat) : Finset Place :=
  (D ×ˢ Finset.univ).image (fun a : Nat × Fin NUPDE => .table a.1 a.2)
    ∪ (D ×ˢ Finset.univ).image
      (fun a : Nat × Fin NUPDE × Fin NPTENTRIES => .page a.1 a.2.1 a.2.2)

theorem mem_places {D : Finset Nat} {x : Place} :
  x ∈ places D ↔ x.dir ∈ D
  := by
  rw [places, Finset.mem_union, Finset.mem_image, Finset.mem_image]
  constructor
  · rintro (⟨⟨pg, d⟩, hm, rfl⟩ | ⟨⟨pg, d, t⟩, hm, rfl⟩)
    · apply (Finset.mem_product.mp hm).1
    · apply (Finset.mem_product.mp hm).1
  · intro hx
    cases x with
    | table pg d =>
        left
        use (pg, d)
        constructor
        · apply Finset.mem_product.mpr
          constructor
          · apply hx
          · apply Finset.mem_univ
        · rfl
    | page pg d t =>
        right
        use (pg, d, t)
        constructor
        · apply Finset.mem_product.mpr
          constructor
          · apply hx
          · simp only [Finset.mem_univ]
        · rfl

-- Elaboration would otherwise evaluate the set of all places.
attribute [irreducible] places

/-- The directory index of an address below `UTOP`. -/
def dirIx (va : Word) (hva : va.toNat < UTOP) : Fin NUPDE :=
  ⟨PDX va, PDX_lt_of_lt_UTOP hva⟩

/-- The page table index of an address. -/
def tableIx (va : Word) : Fin NPTENTRIES :=
  ⟨PTX va, PTX_lt va⟩

namespace Kernel

/-- The `t`-th entry of the `d`-th page table of the directory `pg`. -/
def pteIn (s : Kernel) (pg d t : Nat) : Word :=
  match refOf (s.entry pg d) with
  | some pt => s.entry pt t
  | none => 0

/-- What a place refers to. -/
def placeRef (s : Kernel) : Place → Option Nat
  | .table pg d => refOf (s.entry pg d)
  | .page pg d t => refOf (s.pteIn pg d t)

/-- The kernel without environments. -/
def bare (s : Kernel) : Kernel :=
  { s with envs := fun _ => {} }

/-- The number of references to the page `p` from the places of `D`, and from elsewhere. -/
def refsIn (s : Kernel) (D : Finset Nat) (own : Nat → Nat) (p : Nat) : Nat :=
  refCount (places D) s.placeRef p + own p

/-- The number of references to the page `p`, with those of the kernel's directory. -/
def refsTo (s : Kernel) (D : Finset Nat) (own : Nat → Nat) (p : Nat) : Nat :=
  s.bare.refs p + s.refsIn D own p

/-- The page `p` is on the free list. -/
def IsFree (s : Kernel) (p : Nat) : Prop :=
  ∃ l, Chain (fun p => (s.pages p).ppLink) s.pageFreeList l ∧ p ∈ l

end Kernel

/-- The page allocator counts the references from the places of `D`, directories are not
free, and a page table belongs to one directory entry and is no directory itself. -/
structure Paging (D avail held : Finset Nat) (own : Nat → Nat) (l : List Nat) (s : Kernel) :
    Prop where
  mem : MemInv avail held (s.refsIn D own) l s.bare
  dirs : ∀ pg ∈ D, pg ∈ avail → 0 < own pg
  apart : ∀ pg ∈ D, ∀ pg' ∈ D, ∀ (d d' : Fin NUPDE) r, refOf (s.entry pg d) = some r →
    refOf (s.entry pg' d') = some r → pg = pg' ∧ d = d'
  table_notMem : ∀ pg ∈ D, ∀ (d : Fin NUPDE) r, refOf (s.entry pg d) = some r → r ∉ D

/-- From `s` to `s'` the entry `t` of the page table `d` of `pg` becomes `w`, and all
other entries stay. -/
structure Sets (D : Finset Nat) (s s' : Kernel) (pg : Nat) (d : Fin NUPDE) (t : Fin NPTENTRIES)
    (w : Word) : Prop where
  pteIn : ∀ pg' ∈ D, ∀ (d' : Fin NUPDE) (t' : Fin NPTENTRIES), s'.pteIn pg' d' t'
    = if pg' = pg ∧ d' = d ∧ t' = t then w else s.pteIn pg' d' t'
  entry : ∀ pg' ∈ D, ∀ d' : Fin NUPDE, s'.entry pg' d' = s.entry pg' d'
  refs : s'.bare.refs = s.bare.refs

variable {D avail held : Finset Nat} {own : Nat → Nat} {l : List Nat} {s s' s'' : Kernel}
variable {pg pt p q : Nat} {d : Fin NUPDE} {t : Fin NPTENTRIES} {w w' : Word}

/-! ### References -/

namespace Kernel

/-- Without environments only the directory of the kernel has references. -/
theorem bare_slotRef_congr (hkern : s'.kernPgdir = s.kernPgdir)
    (he : ∀ d, NUPDE ≤ d → d < 1024 → s'.entry s.kernPgdir d = s.entry s.kernPgdir d) :
  s'.bare.slotRef = s.bare.slotRef
  := by
  funext x
  cases x with
  | dir e => rfl
  | table e d => rfl
  | page e d t =>
      have hnone : ∀ u : Kernel, u.bare.slotRef (.page e d t) = none := by
        intro u
        have hpde : u.bare.pde e d = 0 := rfl
        rw [slotRef, pte, hpde, refOf_zero, refOf_zero]
      rw [hnone, hnone]
  | kern d =>
      simp only [slotRef]
      by_cases hd : NUPDE ≤ d.val ∧ d.val ≠ UVPTX
      · rw [if_pos hd, if_pos hd]
        change refOf (s'.entry s'.kernPgdir d) = refOf (s.entry s.kernPgdir d)
        rw [hkern, he d hd.1 d.isLt]
      · rw [if_neg hd, if_neg hd]

/-- The references after the place `x` changes and the code elsewhere has other references. -/
theorem refsIn_update {x : Place} {v : Option Nat} (hx : x ∈ places D)
    (href : ∀ y ∈ places D, s'.placeRef y = Function.update s.placeRef x v y) (own : Nat → Nat)
    (q : Nat) :
  s'.refsIn D own q + (if s.placeRef x = some q then 1 else 0)
    = s.refsIn D own q + (if v = some q then 1 else 0)
  := by
  have hu := refCount.update s.placeRef v q hx
  have hc : refCount (places D) s'.placeRef q
      = refCount (places D) (Function.update s.placeRef x v) q := by
    apply refCount.congr
    intro y hy
    rw [href y hy]
  rw [refsIn, refsIn, hc]
  omega

theorem refsIn_congr (href : ∀ y ∈ places D, s'.placeRef y = s.placeRef y) (own : Nat → Nat) :
  s'.refsIn D own = s.refsIn D own
  := by
  funext q
  have hc : refCount (places D) s'.placeRef q = refCount (places D) s.placeRef q := by
    apply refCount.congr
    intro y hy
    rw [href y hy]
  rw [refsIn, refsIn, hc]

end Kernel

/-- A place that changes after an entry was set. -/
theorem Sets.placeRef (h : Sets D s s' pg d t w) :
  ∀ x ∈ places D, s'.placeRef x = Function.update s.placeRef (.page pg d t) (refOf w) x
  := by
  intro x hx
  have hx' := mem_places.mp hx
  cases x with
  | table pg' d' =>
      rw [Function.update_of_ne (by simp)]
      simp only [Kernel.placeRef]
      rw [h.entry pg' hx' d']
  | page pg' d' t' =>
      simp only [Kernel.placeRef]
      rw [h.pteIn pg' hx' d' t']
      by_cases he : pg' = pg ∧ d' = d ∧ t' = t
      · obtain ⟨rfl, rfl, rfl⟩ := he
        rw [if_pos ⟨rfl, rfl, rfl⟩, Function.update_self]
      · rw [if_neg he, Function.update_of_ne]
        · rfl
        · intro heq
          obtain ⟨rfl, rfl, rfl⟩ := Place.page.inj heq
          apply he ⟨rfl, rfl, rfl⟩

/-- The references after an entry is set. -/
theorem Sets.refsTo (h : Sets D s s' pg d t w) (hpg : pg ∈ D) (own : Nat → Nat) (q : Nat) :
  s'.refsTo D own q + (if refOf (s.pteIn pg d t) = some q then 1 else 0)
    = s.refsTo D own q + (if refOf w = some q then 1 else 0)
  := by
  have hu := Kernel.refsIn_update (x := .page pg d t) (mem_places.mpr hpg) h.placeRef own q
  rw [show s.placeRef (.page pg d t) = refOf (s.pteIn pg d t) from rfl] at hu
  rw [Kernel.refsTo, Kernel.refsTo, h.refs]
  omega

/-- The entry that was set last counts. -/
theorem Sets.trans (h : Sets D s s' pg d t w) (h' : Sets D s' s'' pg d t w') :
  Sets D s s'' pg d t w'
  := by
  constructor
  case pteIn =>
    intro pg' hpg' d' t'
    rw [h'.pteIn pg' hpg' d' t', h.pteIn pg' hpg' d' t']
    split
    · rfl
    · rfl
  case entry =>
    intro pg' hpg' d'
    rw [h'.entry pg' hpg' d', h.entry pg' hpg' d']
  case refs => rw [h'.refs, h.refs]

/-- A change of the page structures after an entry was set. -/
theorem Sets.trans_mem (h : Sets D s s' pg d t w) (hm : s''.mem = s'.mem)
    (hkern : s''.kernPgdir = s'.kernPgdir) :
  Sets D s s'' pg d t w
  := by
  have hentry : ∀ p i, s''.entry p i = s'.entry p i := by
    intro p i
    rw [Kernel.entry, Kernel.entry, hm]
  constructor
  case pteIn =>
    intro pg' hpg' d' t'
    rw [← h.pteIn pg' hpg' d' t']
    simp only [Kernel.pteIn, hentry]
  case entry =>
    intro pg' hpg' d'
    rw [hentry, h.entry pg' hpg' d']
  case refs =>
    rw [← h.refs]
    funext q
    rw [Kernel.refs, Kernel.refs, Kernel.bare_slotRef_congr hkern (fun d _ _ => hentry _ d)]

namespace Paging

/-! ### Free pages, tables and directories -/

/-- The free pages are those on the free list. -/
theorem isFree_iff (h : Paging D avail held own l s) :
  s.IsFree p ↔ p ∈ l
  := by
  constructor
  · rintro ⟨l', hl', hp⟩
    rw [h.mem.chain.unique hl']
    apply hp
  · intro hp
    use l
    constructor
    · apply h.mem.chain
    · apply hp

/-- What a place refers to is kept by the allocator and is not free. -/
theorem ref_avail (h : Paging D avail held own l s) {x : Place} (hx : x ∈ places D)
    (hr : s.placeRef x = some p) :
  p ∈ avail ∧ p ∉ l
  := by
  have hpos : 0 < s.refsIn D own p := by
    have := refCount.pos_iff.mpr ⟨x, hx, hr⟩
    rw [Kernel.refsIn]
    omega
  constructor
  · apply h.mem.balanced.own_avail p hpos
  · intro hl
    have := (h.mem.refs_free hl).2.2.2
    omega

/-- The counter of a page counts the references to it. -/
theorem counted (h : Paging D avail held own l s) (hp : p ∈ avail) :
  (s.pages p).ppRef = s.refsTo D own p % 65536
  := h.mem.balanced.counted p hp

theorem refsTo_pos {x : Place} (hx : x ∈ places D)
    (hr : s.placeRef x = some p) :
  0 < s.refsTo D own p
  := by
  have := refCount.pos_iff.mpr ⟨x, hx, hr⟩
  rw [Kernel.refsTo, Kernel.refsIn]
  omega

/-- Nothing refers to a free page. -/
theorem free_unreferenced (h : Paging D avail held own l s) (hp : p ∈ l) :
  p ∈ avail ∧ p ∉ D ∧ own p = 0 ∧ s.refsTo D own p = 0 ∧ ∀ x ∈ places D, s.placeRef x ≠ some p
  := by
  obtain ⟨ha, -, hr, ho⟩ := h.mem.refs_free hp
  rw [Kernel.refsIn] at ho
  use ha
  constructor
  · intro hD
    have := h.dirs p hD ha
    omega
  · constructor
    · omega
    · constructor
      · rw [Kernel.refsTo, Kernel.refsIn]
        omega
      · intro x hx hr
        apply (h.ref_avail hx hr).2 hp

/-- A page that the allocator keeps has a page number of 20 bits. -/
theorem avail_lt (h : Paging D avail held own l s) (hp : p ∈ avail) :
  p < 2 ^ 20
  := by
  have h1 : p < s.npages := h.mem.avail_lt p hp
  have h2 : s.npages ≤ 2 ^ 20 := h.mem.npages_le
  omega

/-- A page table is kept by the allocator, and is neither free nor a directory. -/
theorem table_avail (h : Paging D avail held own l s) (hpg : pg ∈ D)
    (hpt : refOf (s.entry pg d) = some pt) :
  pt ∈ avail ∧ pt ∉ l ∧ pt ∉ D
  := by
  obtain ⟨ha, hl⟩ := h.ref_avail (x := .table pg d) (mem_places.mpr hpg) hpt
  use ha, hl
  apply h.table_notMem pg hpg d pt hpt

theorem table_lt (h : Paging D avail held own l s) (hpg : pg ∈ D)
    (hpt : refOf (s.entry pg d) = some pt) :
  pt < s.npages
  := h.mem.avail_lt pt (h.table_avail hpg hpt).1

/-! ### Stores to page tables -/

/-- A store to a page table does not change the directory of the kernel. -/
theorem slotRef_setEntry (h : Paging D avail held own l s) (hpg : pg ∈ D)
    (hpt : refOf (s.entry pg d) = some pt) (t : Fin NPTENTRIES) (w : Word) :
  (s.setEntry pt t w).bare.slotRef = s.bare.slotRef
  := by
  have hne : s.kernPgdir ≠ pt := by
    rintro rfl
    apply h.mem.kern_notMem (h.table_avail hpg hpt).1
  apply Kernel.bare_slotRef_congr
  · rfl
  · intro d' _ hd'
    apply Kernel.entry_setEntry_of_ne s w t.isLt hd'
    left
    apply hne

/-- Storing to a page table sets one entry. -/
theorem sets_setEntry (h : Paging D avail held own l s) (hpg : pg ∈ D)
    (hpt : refOf (s.entry pg d) = some pt) (t : Fin NPTENTRIES) (w : Word) :
  Sets D s (s.setEntry pt t w) pg d t w
  := by
  have hta := h.table_avail hpg hpt
  have hentry : ∀ pg' ∈ D, ∀ d' : Fin NUPDE, (s.setEntry pt t w).entry pg' d' = s.entry pg' d' := by
    intro pg' hpg' d'
    have hd' := d'.isLt
    simp only [NUPDE] at hd'
    apply Kernel.entry_setEntry_of_ne s w t.isLt (by omega)
    left
    rintro rfl
    apply hta.2.2 hpg'
  constructor
  case pteIn =>
    intro pg' hpg' d' t'
    rw [Kernel.pteIn, hentry pg' hpg' d', Kernel.pteIn]
    by_cases hd : pg' = pg ∧ d' = d
    · obtain ⟨rfl, rfl⟩ := hd
      rw [hpt]
      by_cases ht : t' = t
      · rw [ht, if_pos ⟨rfl, rfl, rfl⟩]
        apply Kernel.entry_setEntry
      · rw [if_neg (fun hc => ht hc.2.2)]
        apply Kernel.entry_setEntry_of_ne s w t.isLt t'.isLt
        right
        intro hv
        apply ht (Fin.ext hv)
    · rw [if_neg (fun hc => hd ⟨hc.1, hc.2.1⟩)]
      cases hr : refOf (s.entry pg' d') with
      | none => rfl
      | some r =>
          apply Kernel.entry_setEntry_of_ne s w t.isLt t'.isLt
          left
          rintro rfl
          apply hd (h.apart pg' hpg' pg hpg d' d r hr hpt)
  case entry => apply hentry
  case refs =>
    funext q
    rw [Kernel.refs, Kernel.refs, h.slotRef_setEntry hpg hpt]

/-- An entry changes and the code elsewhere takes over or hands on the references. -/
theorem setEntry (h : Paging D avail held own l s) (hpg : pg ∈ D)
    (hpt : refOf (s.entry pg d) = some pt) (t : Fin NPTENTRIES) (w : Word) {own' : Nat → Nat}
    (hown : ∀ q, own' q + (if refOf w = some q then 1 else 0)
      = own q + (if refOf (s.pteIn pg d t) = some q then 1 else 0))
    (hdirs : ∀ pg ∈ D, pg ∈ avail → 0 < own' pg) :
  Paging D avail held own' l (s.setEntry pt t w)
  := by
  have hs := h.sets_setEntry hpg hpt t w
  have hrefs : (s.setEntry pt t w).refsIn D own' = s.refsIn D own := by
    funext q
    have hu := Kernel.refsIn_update (x := .page pg d t) (mem_places.mpr hpg) hs.placeRef own q
    rw [show s.placeRef (.page pg d t) = refOf (s.pteIn pg d t) from rfl] at hu
    have := hown q
    simp only [Kernel.refsIn] at hu ⊢
    omega
  constructor
  case mem =>
    rw [hrefs]
    apply MemInv.of_store h.mem
    · rfl
    · rfl
    · rfl
    · rfl
    rw [show (s.setEntry pt t w).bare.store l held (s.refsIn D own)
        = s.bare.store l held (s.refsIn D own) by
      rw [Kernel.store, Kernel.store, h.slotRef_setEntry hpg hpt]
      rfl]
    apply h.mem.balanced
  case dirs => apply hdirs
  case apart =>
    intro pg1 h1 pg2 h2 d1 d2 r hr1 hr2
    rw [hs.entry pg1 h1] at hr1
    rw [hs.entry pg2 h2] at hr2
    apply h.apart pg1 h1 pg2 h2 d1 d2 r hr1 hr2
  case table_notMem =>
    intro pg1 h1 d1 r hr
    rw [hs.entry pg1 h1] at hr
    apply h.table_notMem pg1 h1 d1 r hr

/-! ### Counting -/

/-- The code elsewhere takes one more reference to a page. -/
theorem incref (h : Paging D avail held own l s) (hpa : p ∈ avail) (hpl : p ∉ l) :
  Paging D avail (held.erase p) (Function.update own p (own p + 1)) l (s.incref p)
  := by
  have hrefs : (s.incref p).refsIn D (Function.update own p (own p + 1))
      = Function.update (s.refsIn D own) p (s.refsIn D own p + 1) := by
    funext q
    by_cases hqp : q = p
    · subst hqp
      rw [Function.update_self, Kernel.refsIn, Function.update_self, Kernel.refsIn, Nat.add_assoc]
      rfl
    · rw [Function.update_of_ne hqp, Kernel.refsIn, Function.update_of_ne hqp]
      rfl
  constructor
  case mem =>
    rw [hrefs]
    apply h.mem.incref hpa hpl
  case dirs =>
    intro pg hpg ha
    by_cases hqp : pg = p
    · subst hqp
      rw [Function.update_self]
      omega
    · rw [Function.update_of_ne hqp]
      apply h.dirs pg hpg ha
  case apart => apply h.apart
  case table_notMem => apply h.table_notMem

theorem decref_bare (s : Kernel) (p : Nat) :
  (s.decref p).bare = s.bare.decref p
  := by
  by_cases h0 : ((s.pages p).ppRef + 65535) % 65536 = 0
  · rw [decref_eq_freed h0, decref_eq_freed (s := s.bare) h0]
    rfl
  · rw [decref_eq_setPage rfl h0, decref_eq_setPage (s := s.bare) rfl h0]
    rfl

/-- The code elsewhere gives up the reference it took. -/
theorem decref (h : Paging D avail held (Function.update own p (own p + 1)) l s)
    (hdirs : ∀ pg ∈ D, pg ∈ avail → 0 < own pg) (hfits : s.refsTo D own p < 65536) :
  ∃ l', Paging D avail held own l' (s.decref p)
  := by
  have hq := decref_quiet (s := s) p
  have hentry : ∀ r i, (s.decref p).entry r i = s.entry r i := by
    intro r i
    rw [Kernel.entry, Kernel.entry, hq.2]
  have hplace : (s.decref p).placeRef = s.placeRef := by
    funext x
    cases x with
    | table pg d => simp only [Kernel.placeRef, hentry]
    | page pg d t => simp only [Kernel.placeRef, Kernel.pteIn, hentry]
  have hrefs : Function.update (s.refsIn D (Function.update own p (own p + 1))) p
      (s.refsIn D (Function.update own p (own p + 1)) p - 1) = (s.decref p).refsIn D own := by
    funext q
    have hright : (s.decref p).refsIn D own q = refCount (places D) s.placeRef q + own q := by
      rw [Kernel.refsIn, hplace]
    rw [hright]
    by_cases hqp : q = p
    · subst hqp
      rw [Function.update_self, Kernel.refsIn, Function.update_self]
      omega
    · rw [Function.update_of_ne hqp, Kernel.refsIn, Function.update_of_ne hqp]
  have hown : s.refsIn D (Function.update own p (own p + 1)) p = s.refsIn D own p + 1 := by
    rw [Kernel.refsIn, Function.update_self, Kernel.refsIn]
    omega
  rw [Kernel.refsTo] at hfits
  obtain ⟨l', hm⟩ := h.mem.decref (p := p) (by omega) (by omega)
  use l'
  rw [hrefs, ← decref_bare] at hm
  constructor
  case mem => apply hm
  case dirs => apply hdirs
  case apart =>
    simp only [hentry]
    apply h.apart
  case table_notMem =>
    simp only [hentry]
    apply h.table_notMem

end Paging

/-! ### Page tables on demand -/

/-- From `s` to `s'` the entry `d` of the directory `pg` becomes an empty page table `p`. -/
structure NewTable (D : Finset Nat) (s s' : Kernel) (pg : Nat) (d : Fin NUPDE) (p : Nat) :
    Prop where
  pteIn : ∀ pg' ∈ D, ∀ (d' : Fin NUPDE) (t' : Fin NPTENTRIES), s'.pteIn pg' d' t' = s.pteIn pg' d' t'
  entry : ∀ pg' ∈ D, ∀ d' : Fin NUPDE, s'.entry pg' d'
    = if pg' = pg ∧ d' = d then tableEntry p else s.entry pg' d'
  slots : s'.bare.slotRef = s.bare.slotRef

/-- The directory entry of a new page table refers to it. -/
theorem NewTable.placeRef (h : NewTable D s s' pg d p) (hp : p < 2 ^ 20) :
  ∀ x ∈ places D, s'.placeRef x = Function.update s.placeRef (.table pg d) (some p) x
  := by
  intro x hx
  have hx' := mem_places.mp hx
  cases x with
  | table pg' d' =>
      simp only [Kernel.placeRef]
      rw [h.entry pg' hx' d']
      by_cases he : pg' = pg ∧ d' = d
      · obtain ⟨rfl, rfl⟩ := he
        rw [if_pos ⟨rfl, rfl⟩, Function.update_self, refOf_tableEntry hp]
      · rw [if_neg he, Function.update_of_ne]
        · rfl
        · intro heq
          obtain ⟨rfl, rfl⟩ := Place.table.inj heq
          apply he ⟨rfl, rfl⟩
  | page pg' d' t' =>
      rw [Function.update_of_ne (by simp)]
      simp only [Kernel.placeRef]
      rw [h.pteIn pg' hx' d' t']

namespace Kernel

theorem entry_taken_of_ne (s : Kernel) {p r i : Nat} (hi : i < 1024) (hr : r ≠ p) :
  (s.taken p).entry r i = s.entry r i
  := entry_zeroPage_of_ne _ hi hr

/-- The words of memory after a page table is added. -/
theorem entry_withTable_of_ne (s : Kernel) {pg d p r i : Nat} (hd : d < 1024) (hi : i < 1024)
    (hr : r ≠ pg ∨ i ≠ d) :
  (s.withTable pg d p).entry r i = (s.taken p).entry r i
  := entry_setEntry_of_ne _ _ hd hi hr

end Kernel

namespace Paging

/-- Taking a free page changes no entry. -/
theorem entry_taken (h : Paging D avail held own (p :: l) s) (hpg : pg ∈ D) :
  (∀ i < 1024, (s.taken p).entry pg i = s.entry pg i)
    ∧ ∀ (d : Fin NUPDE) (t : Fin NPTENTRIES), (s.taken p).pteIn pg d t = s.pteIn pg d t
  := by
  obtain ⟨-, hpD, -, -, hu⟩ := h.free_unreferenced List.mem_cons_self
  have hentry : ∀ i < 1024, (s.taken p).entry pg i = s.entry pg i := by
    intro i hi
    apply Kernel.entry_taken_of_ne s hi
    rintro rfl
    apply hpD hpg
  use hentry
  intro d t
  have hd := d.isLt
  simp only [NUPDE] at hd
  rw [Kernel.pteIn, hentry d (by omega), Kernel.pteIn]
  cases hr : refOf (s.entry pg d) with
  | none => rfl
  | some r =>
      apply Kernel.entry_taken_of_ne s t.isLt
      rintro rfl
      apply hu (.table pg d) (mem_places.mpr hpg) hr

theorem refsIn_taken (h : Paging D avail held own (p :: l) s) :
  (s.taken p).refsIn D own = s.refsIn D own
  := by
  apply Kernel.refsIn_congr
  intro x hx
  have hx' := mem_places.mp hx
  cases x with
  | table pg d =>
      have hpg : pg ∈ D := hx'
      have hd := d.isLt
      simp only [NUPDE] at hd
      simp only [Kernel.placeRef]
      rw [(h.entry_taken hpg).1 d (by omega)]
  | page pg d t =>
      have hpg : pg ∈ D := hx'
      simp only [Kernel.placeRef]
      rw [(h.entry_taken hpg).2 d t]

theorem refsTo_taken (h : Paging D avail held own (p :: l) s) :
  (s.taken p).refsTo D own = s.refsTo D own
  := by
  funext q
  have hrefs : (s.taken p).bare.refs q = s.bare.refs q :=
    refs_sameTables h.mem.taken_sameTables q
  rw [Kernel.refsTo, Kernel.refsTo, h.refsIn_taken, hrefs]

/-- Taking a free page hands it to the code elsewhere. -/
theorem taken (h : Paging D avail held own (p :: l) s) :
  Paging D avail (insert p held) own l (s.taken p)
  := by
  have hent : ∀ pg ∈ D, ∀ d : Fin NUPDE, (s.taken p).entry pg d = s.entry pg d := by
    intro pg hpg d
    have hd := d.isLt
    simp only [NUPDE] at hd
    apply (h.entry_taken hpg).1 d (by omega)
  constructor
  case mem =>
    rw [h.refsIn_taken]
    apply h.mem.taken
  case dirs => apply h.dirs
  case apart =>
    intro pg hpg pg' hpg' d d' r hr hr'
    rw [hent pg hpg d] at hr
    rw [hent pg' hpg' d'] at hr'
    apply h.apart pg hpg pg' hpg' d d' r hr hr'
  case table_notMem =>
    intro pg hpg d r hr
    rw [hent pg hpg d] at hr
    apply h.table_notMem pg hpg d r hr

/-- A free page becomes an empty page table. -/
theorem tabled (h : Paging D avail held own (p :: l) s) (hpg : pg ∈ D)
    (hnone : refOf (s.entry pg d) = none) :
  NewTable D s (s.withTable pg d p) pg d p
  := by
  obtain ⟨hpa, hpD, -, -, hu⟩ := h.free_unreferenced List.mem_cons_self
  have hd := d.isLt
  simp only [NUPDE] at hd
  have hlt := h.avail_lt hpa
  have hentry : ∀ pg' ∈ D, ∀ d' : Fin NUPDE, (s.withTable pg d p).entry pg' d'
      = if pg' = pg ∧ d' = d then tableEntry p else s.entry pg' d' := by
    intro pg' hpg' d'
    have hd' := d'.isLt
    simp only [NUPDE] at hd'
    by_cases he : pg' = pg ∧ d' = d
    · obtain ⟨rfl, rfl⟩ := he
      rw [if_pos ⟨rfl, rfl⟩]
      apply Kernel.entry_setEntry
    · rw [if_neg he, Kernel.entry_withTable_of_ne s (by omega) (by omega)]
      · apply (h.entry_taken hpg').1 d' (by omega)
      · by_contra hc
        obtain ⟨h1, h2⟩ := not_or.mp hc
        apply he ⟨not_not.mp h1, Fin.ext (not_not.mp h2)⟩
  constructor
  case entry => apply hentry
  case pteIn =>
    intro pg' hpg' d' t'
    rw [Kernel.pteIn, hentry pg' hpg' d']
    by_cases he : pg' = pg ∧ d' = d
    · obtain ⟨rfl, rfl⟩ := he
      have hne : p ≠ pg' := by
        rintro rfl
        apply hpD hpg'
      rw [if_pos ⟨rfl, rfl⟩, refOf_tableEntry hlt, Kernel.pteIn, hnone]
      simp only
      rw [Kernel.entry_withTable_of_ne s (by omega) t'.isLt (Or.inl hne)]
      apply Jos.entry_taken p t'.isLt
    · rw [if_neg he, Kernel.pteIn]
      cases hr : refOf (s.entry pg' d') with
      | none => rfl
      | some r =>
          have hrD := h.table_notMem pg' hpg' d' r hr
          simp only
          rw [Kernel.entry_withTable_of_ne s (by omega) t'.isLt]
          · apply Kernel.entry_taken_of_ne s t'.isLt
            rintro rfl
            apply hu (.table pg' d') (mem_places.mpr hpg') hr
          · left
            rintro rfl
            apply hrD hpg
  case slots =>
    apply Kernel.bare_slotRef_congr
    · rfl
    · intro d' h1 h2
      simp only [NUPDE] at h1
      rw [Kernel.entry_withTable_of_ne s (by omega) h2 (by omega)]
      apply Kernel.entry_taken_of_ne s h2
      rintro rfl
      apply h.mem.kern_notMem hpa

/-- Adding a page table keeps the invariant. -/
theorem withTable (h : Paging D avail held own (p :: l) s) (hpg : pg ∈ D)
    (hnone : refOf (s.entry pg d) = none) :
  Paging D avail held own l (s.withTable pg d p)
  := by
  obtain ⟨hpa, hpD, -, -, hu⟩ := h.free_unreferenced List.mem_cons_self
  have ht := h.tabled hpg hnone
  have hlt := h.avail_lt hpa
  have hp' : p ∉ l := (List.nodup_cons.mp h.mem.balanced.nodup).1
  have hheld : p ∉ held := (h.mem.refs_free List.mem_cons_self).2.1
  have hm := h.mem.taken.incref hpa hp'
  rw [Finset.erase_insert hheld] at hm
  have hrefs : Function.update (s.refsIn D own) p (s.refsIn D own p + 1)
      = (s.withTable pg d p).refsIn D own := by
    funext q
    have hup := Kernel.refsIn_update (x := .table pg d) (mem_places.mpr hpg) (ht.placeRef hlt) own q
    rw [if_neg (by rw [Kernel.placeRef, hnone]; simp)] at hup
    by_cases hqp : q = p
    · subst hqp
      rw [if_pos rfl] at hup
      rw [Function.update_self]
      omega
    · rw [if_neg (fun hc => hqp (Option.some.inj hc).symm)] at hup
      rw [Function.update_of_ne hqp]
      omega
  have hslots : (s.withTable pg d p).bare.slotRef = ((s.bare.taken p).incref p).slotRef := by
    rw [ht.slots, (incref_sameTables p).slotRef, h.mem.taken_sameTables.slotRef]
  rw [hrefs] at hm
  constructor
  case mem =>
    apply MemInv.of_store hm
    · rfl
    · rfl
    · rfl
    · rfl
    rw [show (s.withTable pg d p).bare.store l held ((s.withTable pg d p).refsIn D own)
        = ((s.bare.taken p).incref p).store l held ((s.withTable pg d p).refsIn D own) by
      rw [Kernel.store, Kernel.store, hslots]
      rfl]
    apply hm.balanced
  case dirs => apply h.dirs
  case apart =>
    intro pg1 h1 pg2 h2 d1 d2 r hr1 hr2
    rw [ht.entry pg1 h1 d1] at hr1
    rw [ht.entry pg2 h2 d2] at hr2
    by_cases he1 : pg1 = pg ∧ d1 = d
    · by_cases he2 : pg2 = pg ∧ d2 = d
      · rw [he1.1, he1.2, he2.1, he2.2]
        constructor
        · rfl
        · rfl
      · rw [if_pos he1, refOf_tableEntry hlt] at hr1
        rw [if_neg he2] at hr2
        obtain rfl := Option.some.inj hr1
        apply (hu (.table pg2 d2) (mem_places.mpr h2) hr2).elim
    · by_cases he2 : pg2 = pg ∧ d2 = d
      · rw [if_pos he2, refOf_tableEntry hlt] at hr2
        rw [if_neg he1] at hr1
        obtain rfl := Option.some.inj hr2
        apply (hu (.table pg1 d1) (mem_places.mpr h1) hr1).elim
      · rw [if_neg he1] at hr1
        rw [if_neg he2] at hr2
        apply h.apart pg1 h1 pg2 h2 d1 d2 r hr1 hr2
  case table_notMem =>
    intro pg1 h1 d1 r hr
    rw [ht.entry pg1 h1 d1] at hr
    by_cases he : pg1 = pg ∧ d1 = d
    · rw [if_pos he, refOf_tableEntry hlt] at hr
      obtain rfl := Option.some.inj hr
      apply hpD
    · rw [if_neg he] at hr
      apply h.table_notMem pg1 h1 d1 r hr

/-- The references after a page table is added. -/
theorem refsTo_withTable (h : Paging D avail held own (p :: l) s) (hpg : pg ∈ D)
    (hnone : refOf (s.entry pg d) = none) (q : Nat) :
  (s.withTable pg d p).refsTo D own q = s.refsTo D own q + (if q = p then 1 else 0)
  := by
  obtain ⟨hpa, -⟩ := h.free_unreferenced List.mem_cons_self
  have hlt := h.avail_lt hpa
  have ht := h.tabled hpg hnone
  have hup := Kernel.refsIn_update (x := .table pg d) (mem_places.mpr hpg) (ht.placeRef hlt) own q
  rw [if_neg (by rw [Kernel.placeRef, hnone]; simp)] at hup
  simp only [Option.some.injEq, eq_comm (a := p)] at hup
  rw [Kernel.refsTo, Kernel.refsTo, Kernel.refs, Kernel.refs, ht.slots]
  omega

/-! ### Walking and looking up -/

/-- Walking to an address whose page table exists. -/
theorem pgdirWalk_ok (h : Paging D avail held own l s) (hpg : pg ∈ D) {va : Word}
    (hva : va.toNat < UTOP) (create : Bool) (hpt : refOf (s.entry pg (PDX va)) = some pt) :
  pgdirWalk pg va create s = .ok (some (pt, PTX va), s)
  := by
  apply pgdirWalk_eq_some create hpt
  apply h.table_lt (d := dirIx va hva) hpg hpt

/-- Walking to an address fails when no page is free for its page table. -/
theorem pgdirWalk_full (h : Paging D avail held own [] s) {va : Word}
    (hnone : refOf (s.entry pg (PDX va)) = none) :
  pgdirWalk pg va true s = .ok (none, s)
  := by
  have hlist : s.pageFreeList = none := h.mem.pageFreeList_eq_none.mpr rfl
  apply pgdirWalk_create_of_none hlist hnone

/-- Walking to an address makes a page table of the first free page. -/
theorem pgdirWalk_makes (h : Paging D avail held own (p :: l) s) {va : Word}
    (hnone : refOf (s.entry pg (PDX va)) = none) :
  pgdirWalk pg va true s = .ok (some (p, PTX va), s.withTable pg (PDX va) p)
  := by
  have hlist : s.pageFreeList = some p := h.mem.chain.1
  have hlt : p < s.npages := h.mem.avail_lt p (h.free_unreferenced List.mem_cons_self).1
  have hn : s.npages ≤ 2 ^ 20 := h.mem.npages_le
  apply pgdirWalk_create_of_some hlist hlt hn hnone

/-- Nothing is found at an address that is not mapped. -/
theorem pageLookup_none (h : Paging D avail held own l s) (hpg : pg ∈ D) {va : Word}
    (hva : va.toNat < UTOP) (hnone : refOf (s.pteIn pg (PDX va) (PTX va)) = none) :
  pageLookup pg va s = .ok (none, s)
  := by
  cases hpt : refOf (s.entry pg (PDX va)) with
  | none =>
      rw [pageLookup, Prog.bind_of_eq (pgdirWalk_eq_none hpt)]
      rfl
  | some pt =>
      rw [Kernel.pteIn, hpt] at hnone
      rw [pageLookup, Prog.bind_of_eq (h.pgdirWalk_ok hpg hva false hpt)]
      simp only
      rw [Prog.get_bind, if_pos (refOf_eq_none.mp hnone)]
      rfl

/-- At a mapped address the page is found with its entry. -/
theorem pageLookup_some (h : Paging D avail held own l s) (hpg : pg ∈ D) {va : Word}
    (hva : va.toNat < UTOP) (hpt : refOf (s.entry pg (PDX va)) = some pt)
    (hq : refOf (s.pteIn pg (PDX va) (PTX va)) = some q) :
  pageLookup pg va s = .ok (some (q, (pt, PTX va)), s)
  := by
  have hqa := (h.ref_avail (p := q)
    (x := .page pg (dirIx va hva) (tableIx va)) (mem_places.mpr hpg) hq).1
  have hlt : q < s.npages := h.mem.avail_lt q hqa
  rw [Kernel.pteIn, hpt] at hq
  obtain ⟨hp, hpage⟩ := refOf_eq_some.mp hq
  have hk : PGNUM (PTE_ADDR (s.entry pt (PTX va))) = q := hpage
  rw [pageLookup, Prog.bind_of_eq (h.pgdirWalk_ok hpg hva false hpt)]
  simp only
  rw [Prog.get_bind, if_neg hp, Prog.bind_of_eq (pa2page_eq (by omega)), hk]
  rfl

/-! ### Removing -/

/-- Removing what is mapped clears its entry and gives up the reference. -/
theorem pageRemove_some (h : Paging D avail held own l s) (hpg : pg ∈ D) {va : Word}
    (hva : va.toNat < UTOP) (hpt : refOf (s.entry pg (PDX va)) = some pt)
    (hq : refOf (s.pteIn pg (PDX va) (PTX va)) = some q) :
  pageRemove pg va s = .ok ((), (s.setEntry pt (PTX va) 0).decref q)
  := by
  obtain ⟨hqa, hql⟩ := h.ref_avail (p := q)
    (x := .page pg (dirIx va hva) (tableIx va)) (mem_places.mpr hpg) hq
  have hlink : (s.pages q).ppLink = none := h.mem.unlinked q hqa hql
  rw [← decref_setEntry, pageRemove, Prog.bind_of_eq (h.pageLookup_some hpg hva hpt hq)]
  simp only
  rw [Prog.bind_of_eq (pageDecref_eq hlink)]
  rfl

/-- Removing what is not mapped has no effect. -/
theorem pageRemove_none (h : Paging D avail held own l s) (hpg : pg ∈ D) {va : Word}
    (hva : va.toNat < UTOP) (hnone : refOf (s.pteIn pg (PDX va) (PTX va)) = none) :
  pageRemove pg va s = .ok ((), s)
  := by
  rw [pageRemove, Prog.bind_of_eq (h.pageLookup_none hpg hva hnone)]
  rfl

/-- Clearing an entry and giving up its reference keeps the invariant. -/
theorem clear (h : Paging D avail held own l s) (hpg : pg ∈ D)
    (hpt : refOf (s.entry pg d) = some pt) (hq : refOf (s.pteIn pg d t) = some q)
    (hfits : s.refsTo D own q ≤ 65536) :
  (∃ l', Paging D avail held own l' ((s.setEntry pt t 0).decref q))
    ∧ Sets D s ((s.setEntry pt t 0).decref q) pg d t 0
  := by
  have hs := h.sets_setEntry hpg hpt t 0
  have hr := hs.refsTo hpg own q
  rw [if_pos hq, refOf_zero, if_neg (by simp)] at hr
  have h1 : Paging D avail held (Function.update own q (own q + 1)) l (s.setEntry pt t 0) := by
    apply h.setEntry hpg hpt
    · intro r
      rw [hq, refOf_zero, if_neg (by simp)]
      by_cases hrq : r = q
      · subst hrq
        rw [Function.update_self, if_pos rfl]
      · rw [Function.update_of_ne hrq, if_neg (fun hc => hrq (Option.some.inj hc).symm)]
    · intro r hr' ha
      have := h.dirs r hr' ha
      by_cases hrq : r = q
      · subst hrq
        rw [Function.update_self]
        omega
      · rw [Function.update_of_ne hrq]
        apply this
  constructor
  · apply h1.decref h.dirs
    omega
  · obtain ⟨hquiet, hmem⟩ := decref_quiet (s := s.setEntry pt t 0) q
    apply hs.trans_mem hmem hquiet.kernPgdir

/-! ### Inserting -/

/-- Filling an empty entry counts one more reference. -/
theorem fill (h : Paging D avail held own l s) (hpg : pg ∈ D)
    (hpt : refOf (s.entry pg d) = some pt) (hnone : refOf (s.pteIn pg d t) = none)
    (hpa : p ∈ avail) (hpl : p ∉ l) (hw : refOf w = some p) :
  Paging D avail (held.erase p) own l ((s.setEntry pt t w).incref p)
    ∧ Sets D s ((s.setEntry pt t w).incref p) pg d t w
  := by
  have h1 := h.incref hpa hpl
  have hpt1 : refOf ((s.incref p).entry pg d) = some pt := hpt
  have hnone1 : refOf ((s.incref p).pteIn pg d t) = none := hnone
  constructor
  · have h2 : Paging D avail (held.erase p) own l ((s.incref p).setEntry pt t w) := by
      apply h1.setEntry hpg hpt1
      · intro r
        rw [hw, hnone1, if_neg (c := none = some r) (by simp)]
        by_cases hrp : r = p
        · subst hrp
          rw [Function.update_self, if_pos rfl]
        · rw [Function.update_of_ne hrp, if_neg (fun hc => hrp (Option.some.inj hc).symm)]
      · apply h.dirs
    apply h2
  · have hs := h.sets_setEntry hpg hpt t w
    apply hs.trans_mem
    · rfl
    · rfl

/-- Replacing an entry counts a reference to the new page before the old one is given up. -/
theorem replace (h : Paging D avail held own l s) (hpg : pg ∈ D)
    (hpt : refOf (s.entry pg d) = some pt) (hq : refOf (s.pteIn pg d t) = some q)
    (hpa : p ∈ avail) (hpl : p ∉ l) (hw : refOf w = some p)
    (hfits : s.refsTo D own q ≤ 65536) (hroom : s.refsTo D own p < 65536) :
  (∃ l', Paging D avail (held.erase p) own l'
      ((((s.incref p).setEntry pt t 0).decref q).setEntry pt t w))
    ∧ Sets D s ((((s.incref p).setEntry pt t 0).decref q).setEntry pt t w) pg d t w
  := by
  have h1 := h.incref hpa hpl
  have hpt1 : refOf ((s.incref p).entry pg d) = some pt := hpt
  have hq1 : refOf ((s.incref p).pteIn pg d t) = some q := hq
  have hfits1 : (s.incref p).refsTo D (Function.update own p (own p + 1)) q ≤ 65536 := by
    have hi : (s.incref p).refsTo D (Function.update own p (own p + 1)) q
        = s.bare.refs q + (refCount (places D) s.placeRef q
          + Function.update own p (own p + 1) q) := rfl
    rw [hi]
    rw [Kernel.refsTo, Kernel.refsIn] at hfits hroom
    by_cases hqp : q = p
    · subst hqp
      rw [Function.update_self]
      omega
    · rw [Function.update_of_ne hqp]
      omega
  obtain ⟨⟨l', h2⟩, hs2⟩ := h1.clear hpg hpt1 hq1 hfits1
  have hpt2 : refOf ((((s.incref p).setEntry pt t 0).decref q).entry pg d) = some pt := by
    rw [hs2.entry pg hpg d]
    apply hpt1
  have hnone2 : refOf ((((s.incref p).setEntry pt t 0).decref q).pteIn pg d t) = none := by
    rw [hs2.pteIn pg hpg d t, if_pos ⟨rfl, rfl, rfl⟩, refOf_zero]
  have hs3 := h2.sets_setEntry hpg hpt2 t w
  constructor
  · use l'
    apply h2.setEntry hpg hpt2
    · intro r
      rw [hw, hnone2, if_neg (c := none = some r) (by simp)]
      by_cases hrp : r = p
      · subst hrp
        rw [Function.update_self, if_pos rfl]
      · rw [Function.update_of_ne hrp, if_neg (fun hc => hrp (Option.some.inj hc).symm)]
    · apply h.dirs
  · have hs : Sets D s (((s.incref p).setEntry pt t 0).decref q) pg d t 0 :=
      ⟨hs2.pteIn, hs2.entry, hs2.refs⟩
    apply hs.trans hs3

/-- An allocated page without references is in the hands of the code elsewhere. -/
theorem mem_held (h : Paging D avail held own l s) (hpa : p ∈ avail) (hpl : p ∉ l)
    (h0 : s.refsTo D own p = 0) :
  p ∈ held
  := by
  have hm := h.mem.balanced.mem_free p
  by_contra hh
  apply hpl
  apply hm.mpr
  use hpa, hh
  apply h0

/-- Putting an allocated page back on the free list. -/
theorem freed (h : Paging D avail held own l s) (hp : p ∈ held) :
  Paging D avail (held.erase p) own (p :: l) (s.freed p)
  := by
  constructor
  case mem => apply h.mem.freed hp
  case dirs => apply h.dirs
  case apart => apply h.apart
  case table_notMem => apply h.table_notMem

section Insert

variable {pp : Nat} {va perm : Word}

/-- The entry that `page_insert` makes for the page `pp`. -/
theorem refOf_insert (h : Paging D avail held own l s) (hpa : pp ∈ avail)
    (hperm : perm.toNat < 4096) :
  refOf (page2pa pp ||| perm ||| PTE_P) = some pp
  := refOf_mk (h.avail_lt hpa) hperm

/-- Inserting fails when a page table is needed and no page is free. -/
theorem pageInsert_full (h : Paging D avail held own [] s)
    (hnone : refOf (s.entry pg (PDX va)) = none) :
  pageInsert pg pp va perm s = .ok (-E_NO_MEM, s)
  := by
  rw [pageInsert, Prog.bind_of_eq (h.pgdirWalk_full hnone)]
  rfl

/-- Inserting at an address that is not mapped. -/
theorem pageInsert_empty (h : Paging D avail held own l s) (hpg : pg ∈ D)
    (hva : va.toNat < UTOP) (hpt : refOf (s.entry pg (PDX va)) = some pt)
    (hnone : refOf (s.pteIn pg (PDX va) (PTX va)) = none) :
  pageInsert pg pp va perm s
    = .ok (0, (s.setEntry pt (PTX va) (page2pa pp ||| perm ||| PTE_P)).incref pp)
  := by
  rw [Kernel.pteIn, hpt] at hnone
  rw [pageInsert, Prog.bind_of_eq (h.pgdirWalk_ok hpg hva true hpt)]
  simp only
  rw [Prog.get_bind, if_pos (refOf_eq_none.mp hnone), Prog.modify_bind,
    Prog.bind_of_eq (pageIncref_eq pp)]
  rfl

/-- Inserting at an address whose page table has to be made. -/
theorem pageInsert_makes (h : Paging D avail held own (p :: l) s) (hpg : pg ∈ D)
    (hva : va.toNat < UTOP) (hnone : refOf (s.entry pg (PDX va)) = none) :
  pageInsert pg pp va perm s = .ok (0, ((s.withTable pg (PDX va) p).setEntry p (PTX va)
    (page2pa pp ||| perm ||| PTE_P)).incref pp)
  := by
  have ht := h.tabled (d := dirIx va hva) hpg hnone
  have hlt := h.avail_lt (h.free_unreferenced List.mem_cons_self).1
  have hentry : (s.withTable pg (PDX va) p).entry p (PTX va) = 0 := by
    have hpte := ht.pteIn pg hpg (dirIx va hva) (tableIx va)
    have hold : s.pteIn pg (dirIx va hva) (tableIx va) = 0 := by
      rw [Kernel.pteIn, show s.entry pg (dirIx va hva) = s.entry pg (PDX va) from rfl, hnone]
    rw [hold, Kernel.pteIn, ht.entry pg hpg, if_pos ⟨rfl, rfl⟩, refOf_tableEntry hlt] at hpte
    apply hpte
  rw [pageInsert, Prog.bind_of_eq (h.pgdirWalk_makes hnone)]
  simp only
  rw [Prog.get_bind, if_pos (by rw [hentry]; rfl), Prog.modify_bind,
    Prog.bind_of_eq (pageIncref_eq pp)]
  rfl

/-- Inserting at a mapped address. -/
theorem pageInsert_mapped (h : Paging D avail held own l s) (hpg : pg ∈ D)
    (hva : va.toNat < UTOP) (hpt : refOf (s.entry pg (PDX va)) = some pt)
    (hq : refOf (s.pteIn pg (PDX va) (PTX va)) = some q) (hpa : pp ∈ avail) (hpl : pp ∉ l) :
  pageInsert pg pp va perm s
    = .ok (0, (((s.incref pp).setEntry pt (PTX va) 0).decref q).setEntry pt (PTX va)
      (page2pa pp ||| perm ||| PTE_P))
  := by
  have h1 := h.incref hpa hpl
  have hpt1 : refOf ((s.incref pp).entry pg (PDX va)) = some pt := hpt
  have hq1 : refOf ((s.incref pp).pteIn pg (PDX va) (PTX va)) = some q := hq
  rw [Kernel.pteIn, hpt] at hq
  rw [pageInsert, Prog.bind_of_eq (h.pgdirWalk_ok hpg hva true hpt)]
  simp only
  rw [Prog.get_bind, if_neg (refOf_eq_some.mp hq).1, Prog.bind_of_eq (pageIncref_eq pp),
    Prog.bind_of_eq (h1.pageRemove_some hpg hva hpt1 hq1)]
  rfl

/-- Counting a reference to a page and giving it up again leaves the counter. -/
theorem pages_incref_decref (s : Kernel) (p : Nat) (hp : (s.pages p).ppRef < 65536)
    (h0 : (s.pages p).ppRef ≠ 0) :
  ((s.incref p).decref p).pages p = s.pages p
  := by
  have hc : (((s.incref p).pages p).ppRef + 65535) % 65536 = (s.pages p).ppRef := by
    simp only [Kernel.incref, Kernel.setPage, Function.update_self]
    omega
  rw [decref_eq_setPage hc h0]
  simp only [Kernel.incref, Kernel.setPage, Function.update_self]

/-- References stay within what a counter can count when a page with room for one more is
inserted. -/
theorem fits_of_sets (hs : Sets D s s' pg d t w) (hpg : pg ∈ D) (hw : refOf w = some p)
    (hfits : ∀ q, s.refsTo D own q ≤ 65536) (hroom : s.refsTo D own p < 65536) (q : Nat) :
  s'.refsTo D own q ≤ 65536
  := by
  have hr := hs.refsTo hpg own q
  have hq := hfits q
  rw [hw] at hr
  by_cases hqp : q = p
  · subst hqp
    rw [if_pos (c := some q = some q) rfl] at hr
    omega
  · rw [if_neg (c := some p = some q) (fun hc => hqp (Option.some.inj hc).symm)] at hr
    omega

/-- Inserting at an address whose page table exists sets its entry. Inserting the page that
is mapped there already leaves the page as it is. -/
theorem pageInsert_table (h : Paging D avail held own l s) (hpg : pg ∈ D)
    (hva : va.toNat < UTOP) (hperm : perm.toNat < 4096) (hpa : pp ∈ avail) (hpl : pp ∉ l)
    (hfits : ∀ q, s.refsTo D own q ≤ 65536) (hroom : s.refsTo D own pp < 65536)
    (hpt : refOf (s.entry pg (PDX va)) = some pt) :
  ∃ s' l', pageInsert pg pp va perm s = .ok (0, s') ∧ Paging D avail (held.erase pp) own l' s'
    ∧ Sets D s s' pg (dirIx va hva) (tableIx va) (page2pa pp ||| perm ||| PTE_P)
    ∧ (refOf (s.pteIn pg (PDX va) (PTX va)) = some pp → s'.pages pp = s.pages pp)
  := by
  have hw := h.refOf_insert hpa hperm
  cases hq : refOf (s.pteIn pg (PDX va) (PTX va)) with
  | none =>
      obtain ⟨h2, hs⟩ := h.fill (d := dirIx va hva) (t := tableIx va) hpg hpt hq hpa hpl hw
      use (s.setEntry pt (PTX va) (page2pa pp ||| perm ||| PTE_P)).incref pp, l
      use h.pageInsert_empty hpg hva hpt hq, h2, hs
      intro hc
      cases hc
  | some q =>
      obtain ⟨⟨l', h2⟩, hs⟩ := h.replace (d := dirIx va hva) (t := tableIx va) hpg hpt hq hpa hpl hw
        (hfits q) hroom
      use (((s.incref pp).setEntry pt (PTX va) 0).decref q).setEntry pt (PTX va)
        (page2pa pp ||| perm ||| PTE_P), l'
      use h.pageInsert_mapped hpg hva hpt hq hpa hpl, h2, hs
      intro hc
      obtain rfl := Option.some.inj hc
      have hcount := h.counted hpa
      have hpos : 0 < s.refsTo D own q :=
        refsTo_pos (x := .page pg (dirIx va hva) (tableIx va)) (mem_places.mpr hpg) hq
      rw [← decref_setEntry]
      apply pages_incref_decref
      · omega
      · omega

/-- Inserting at an address whose page table has to be made. -/
theorem pageInsert_new (h : Paging D avail held own (p :: l) s) (hpg : pg ∈ D)
    (hva : va.toNat < UTOP) (hperm : perm.toNat < 4096) (hpa : pp ∈ avail) (hpl : pp ∉ p :: l)
    (hnone : refOf (s.entry pg (PDX va)) = none) :
  ∃ s', pageInsert pg pp va perm s = .ok (0, s') ∧ Paging D avail (held.erase pp) own l s'
    ∧ NewTable D s (s.withTable pg (dirIx va hva) p) pg (dirIx va hva) p
    ∧ Sets D (s.withTable pg (dirIx va hva) p) s' pg (dirIx va hva) (tableIx va)
      (page2pa pp ||| perm ||| PTE_P)
  := by
  have hw := h.refOf_insert hpa hperm
  obtain ⟨hpp, hpl'⟩ := not_or.mp (fun hm => hpl (List.mem_cons.mpr hm))
  have h1 := h.withTable (d := dirIx va hva) hpg hnone
  have ht := h.tabled (d := dirIx va hva) hpg hnone
  have hlt := h.avail_lt (h.free_unreferenced List.mem_cons_self).1
  have hpt1 : refOf ((s.withTable pg (dirIx va hva) p).entry pg (dirIx va hva)) = some p := by
    rw [ht.entry pg hpg (dirIx va hva), if_pos ⟨rfl, rfl⟩, refOf_tableEntry hlt]
  have hnone1 : refOf ((s.withTable pg (dirIx va hva) p).pteIn pg (dirIx va hva) (tableIx va))
      = none := by
    rw [ht.pteIn pg hpg, Kernel.pteIn, show s.entry pg (dirIx va hva) = s.entry pg (PDX va) from rfl,
      hnone, refOf_zero]
  obtain ⟨h2, hs⟩ := h1.fill (t := tableIx va) hpg hpt1 hnone1 hpa hpl' hw
  use ((s.withTable pg (dirIx va hva) p).setEntry p (tableIx va)
    (page2pa pp ||| perm ||| PTE_P)).incref pp
  use h.pageInsert_makes hpg hva hnone, h2, ht

end Insert

end Paging

end Jos
