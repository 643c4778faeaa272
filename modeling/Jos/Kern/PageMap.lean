import Jos.Kern.Paging
import Jos.Kern.Boot

/-!
# Page tables refine a map

`page_lookup` of a set of page directories agrees with a map from directories and page
numbers to pages and flags, which `page_insert` updates by assignment and `page_remove` by
deletion, in any order of calls.

The counter of references to a page is a `uint16_t`.  The map is refined in the runs that
insert a page only while it has fewer than 65536 references; a page with 65536 references
is freed when it is inserted where it is mapped already.
-/

namespace Jos

open Bytes

/-- What page numbers translate to in directories: a page and the flags of its entry. -/
abbrev PageMap : Type := Nat × Nat → Option (Nat × Word)

/-- The page and the flags that `page_lookup` reports. -/
def lookedUp (s : Kernel) (r : Option (Nat × (Nat × Nat))) : Option (Nat × Word) :=
  r.map (fun x => (x.1, s.entry x.2.1 x.2.2 &&& 0xFFF))

/-- For the directories `D`, `page_lookup` agrees with the map `m`. -/
def Lookups (D : Finset Nat) (s : Kernel) (m : PageMap) : Prop :=
  ∀ pg ∈ D, ∀ va : Word, va.toNat < UTOP →
    ∃ r, pageLookup pg va s = .ok (r, s) ∧ lookedUp s r = m (pg, PGNUM va)

/-- What a call of `page_insert` is made with: a page that is allocated, a page-aligned
address below `UTOP`, and flags. -/
structure Insertion (D avail : Finset Nat) (s : Kernel) (pg pp : Nat) (va perm : Word) :
    Prop where
  dir : pg ∈ D
  page : pp ∈ avail
  allocated : ¬ s.IsFree pp
  aligned : va.toNat % PGSIZE = 0
  va_lt : va.toNat < UTOP
  perm_lt : perm.toNat < 4096

/-- No directory maps anything below `UTOP`, the directories are not free, and the page
allocator counts the references that are held elsewhere. -/
structure Fresh (D avail : Finset Nat) (own : Nat → Nat) (s : Kernel) : Prop where
  mem : ∃ held l, MemInv avail held own l s.bare
  empty : ∀ pg ∈ D, ∀ d < NUPDE, s.entry pg d &&& PTE_P = 0
  dirs : ∀ pg ∈ D, pg ∈ avail → 0 < own pg
  fits : ∀ p, s.bare.refs p + own p < 65536

/-- The kernels that calls on the directories `D` lead to, with the map they make.  Pages
are inserted only when `ok` allows it. -/
inductive MapRun (D avail : Finset Nat) (own : Nat → Nat) (ok : Kernel → Nat → Prop) :
    Kernel → PageMap → Prop where
  | start {s : Kernel} (h : Fresh D avail own s) :
      MapRun D avail own ok s (fun _ => none)
  | alloc {s s' : Kernel} {m : PageMap} {r : Option Nat} (run : MapRun D avail own ok s m)
      (heq : pageAlloc s = .ok (r, s')) :
      MapRun D avail own ok s' m
  | free {s s' : Kernel} {m : PageMap} {pp : Nat} (run : MapRun D avail own ok s m)
      (hpp : pp ∈ avail) (hfree : ¬ s.IsFree pp) (h0 : s.refsTo D own pp = 0)
      (heq : pageFree pp s = .ok ((), s')) :
      MapRun D avail own ok s' m
  | walk {s s' : Kernel} {m : PageMap} {pg : Nat} {va : Word} {r : Option (Nat × Nat)}
      (run : MapRun D avail own ok s m) (hpg : pg ∈ D) (hva : va.toNat < UTOP)
      (heq : pgdirWalk pg va true s = .ok (r, s')) :
      MapRun D avail own ok s' m
  | insert {s s' : Kernel} {m : PageMap} {pg pp : Nat} {va perm r : Word}
      (run : MapRun D avail own ok s m) (hi : Insertion D avail s pg pp va perm)
      (hok : ok s pp) (heq : pageInsert pg pp va perm s = .ok (r, s')) :
      MapRun D avail own ok s'
        (if r = 0 then Function.update m (pg, PGNUM va) (some (pp, perm ||| PTE_P)) else m)
  | remove {s s' : Kernel} {m : PageMap} {pg : Nat} {va : Word}
      (run : MapRun D avail own ok s m) (hpg : pg ∈ D) (hal : va.toNat % PGSIZE = 0)
      (hva : va.toNat < UTOP) (heq : pageRemove pg va s = .ok ((), s')) :
      MapRun D avail own ok s' (Function.update m (pg, PGNUM va) none)

/-- `page_insert` fails, without an effect, exactly if a page table is needed and none can
be allocated.  Otherwise it assigns to the map, and the page stays allocated; a page that
was mapped there keeps its references. -/
def InsertMeets (D : Finset Nat) (s : Kernel) (m : PageMap) (pg pp : Nat) (va perm : Word) :
    Prop :=
  ∃ r s', pageInsert pg pp va perm s = .ok (r, s')
    ∧ (r = -E_NO_MEM ↔ s.entry pg (PDX va) &&& PTE_P = 0 ∧ s.pageFreeList = none)
    ∧ (r = -E_NO_MEM → s' = s)
    ∧ (r ≠ -E_NO_MEM → r = 0
      ∧ Lookups D s' (Function.update m (pg, PGNUM va) (some (pp, perm ||| PTE_P)))
      ∧ ¬ s'.IsFree pp
      ∧ ∀ f, m (pg, PGNUM va) = some (pp, f) → s'.pages pp = s.pages pp)

/-- The directories `D` refine the map `m`: looking up agrees with it, inserting assigns to
it, and removing deletes from it. -/
structure Refines (D avail : Finset Nat) (ok : Kernel → Nat → Prop) (s : Kernel)
    (m : PageMap) : Prop where
  lookup : Lookups D s m
  insert : ∀ pg pp va perm, Insertion D avail s pg pp va perm → ok s pp →
    InsertMeets D s m pg pp va perm
  remove : ∀ pg ∈ D, ∀ va : Word, va.toNat % PGSIZE = 0 → va.toNat < UTOP →
    ∃ s', pageRemove pg va s = .ok ((), s') ∧ Lookups D s' (Function.update m (pg, PGNUM va) none)

/-- There is room for one more reference to the page `pp` in its counter. -/
def Room (D : Finset Nat) (own : Nat → Nat) (s : Kernel) (pp : Nat) : Prop :=
  s.refsTo D own pp < 65536

variable {D avail held : Finset Nat} {own : Nat → Nat} {l : List Nat} {s s' : Kernel}
variable {m : PageMap} {pg pp p : Nat} {va perm w : Word}

/-! ### Entries as a map -/

/-- What a page table entry translates to. -/
def entryMap (w : Word) : Option (Nat × Word) :=
  (refOf w).map (fun p => (p, w &&& 0xFFF))

theorem entryMap_zero :
  entryMap 0 = none
  := by
  rw [entryMap, refOf_zero]
  rfl

/-- The flags of an entry are those it was made with. -/
theorem flags_of_lt (pp : Nat) (hperm : perm.toNat < 4096) :
  (page2pa pp ||| perm ||| PTE_P) &&& 0xFFF = perm ||| PTE_P
  := by
  apply BitVec.eq_of_getLsbD_eq
  intro i hi
  have hmask : ∀ j : Fin 32, (0xFFF : Word).getLsbD j = decide (j.val < 12) := by decide
  rw [BitVec.getLsbD_and, hmask ⟨i, hi⟩, BitVec.getLsbD_or, BitVec.getLsbD_or, BitVec.getLsbD_or,
    page2pa, PGSHIFT, BitVec.getLsbD_shiftLeft, PTE_P_getLsbD]
  by_cases h12 : i < 12
  · simp [h12]
  · have hbit : perm.getLsbD i = false := by
      have hpow : 2 ^ 12 ≤ 2 ^ i := Nat.pow_le_pow_right (by decide) (by omega)
      rw [← BitVec.testBit_toNat]
      apply Nat.testBit_lt_two_pow
      omega
    have h0 : i ≠ 0 := by omega
    simp [h12, hbit, h0]

theorem entryMap_mk (hpp : pp < 2 ^ 20) (hperm : perm.toNat < 4096) :
  entryMap (page2pa pp ||| perm ||| PTE_P) = some (pp, perm ||| PTE_P)
  := by
  rw [entryMap, refOf_mk hpp hperm, flags_of_lt pp hperm]
  rfl

/-- The entries of the directories `D` show the map `m`. -/
def Shows (D : Finset Nat) (s : Kernel) (m : PageMap) : Prop :=
  ∀ pg ∈ D, ∀ va : Word, va.toNat < UTOP →
    entryMap (s.pteIn pg (PDX va) (PTX va)) = m (pg, PGNUM va)

/-- Looking up reports what the entries show. -/
theorem Shows.lookups (h : Shows D s m) (hp : Paging D avail held own l s) :
  Lookups D s m
  := by
  intro pg hpg va hva
  rw [← h pg hpg va hva]
  cases hq : refOf (s.pteIn pg (PDX va) (PTX va)) with
  | none =>
      use none, hp.pageLookup_none hpg hva hq
      rw [entryMap, hq]
      rfl
  | some q =>
      cases hpt : refOf (s.entry pg (PDX va)) with
      | none =>
          rw [Kernel.pteIn, hpt, refOf_zero] at hq
          cases hq
      | some pt =>
          use some (q, (pt, PTX va)), hp.pageLookup_some hpg hva hpt hq
          have hpte : s.pteIn pg (PDX va) (PTX va) = s.entry pt (PTX va) := by
            rw [Kernel.pteIn, hpt]
          rw [entryMap, hq, hpte]
          rfl

/-- Two addresses are on the same page exactly if their indices are the same. -/
theorem key_eq_iff {pg pg' : Nat} {va va' : Word} :
  (pg', PGNUM va') = (pg, PGNUM va) ↔ pg' = pg ∧ PDX va' = PDX va ∧ PTX va' = PTX va
  := by
  have h1 := PTX_lt va
  have h2 := PTX_lt va'
  rw [Prod.mk.injEq, PGNUM_eq_PDX_PTX, PGNUM_eq_PDX_PTX]
  constructor
  · rintro ⟨rfl, h⟩
    use rfl
    omega
  · rintro ⟨rfl, h3, h4⟩
    use rfl
    omega

/-- Setting an entry updates the map. -/
theorem Shows.update (h : Shows D s m) {v : Option (Nat × Word)} (hva : va.toNat < UTOP)
    (hw : entryMap w = v)
    (hpte : ∀ pg' ∈ D, ∀ (d' : Fin NUPDE) (t' : Fin NPTENTRIES), s'.pteIn pg' d' t'
      = if pg' = pg ∧ d' = dirIx va hva ∧ t' = tableIx va then w else s.pteIn pg' d' t') :
  Shows D s' (Function.update m (pg, PGNUM va) v)
  := by
  intro pg' hpg' va' hva'
  have hp := hpte pg' hpg' (dirIx va' hva') (tableIx va')
  rw [show s'.pteIn pg' (PDX va') (PTX va') = _ from hp]
  have hiff : (pg' = pg ∧ dirIx va' hva' = dirIx va hva ∧ tableIx va' = tableIx va)
      ↔ (pg', PGNUM va') = (pg, PGNUM va) := by
    rw [key_eq_iff, Fin.ext_iff, Fin.ext_iff]
    rfl
  by_cases hk : (pg', PGNUM va') = (pg, PGNUM va)
  · rw [if_pos (hiff.mpr hk), hk, Function.update_self, hw]
  · rw [if_neg (fun hc => hk (hiff.mp hc)), Function.update_of_ne hk]
    apply h pg' hpg' va' hva'

/-- A change that leaves the entries alone leaves the map. -/
theorem Shows.congr (h : Shows D s m)
    (hpte : ∀ pg' ∈ D, ∀ (d' : Fin NUPDE) (t' : Fin NPTENTRIES),
      s'.pteIn pg' d' t' = s.pteIn pg' d' t') :
  Shows D s' m
  := by
  intro pg' hpg' va' hva'
  rw [← h pg' hpg' va' hva']
  rw [show s'.pteIn pg' (PDX va') (PTX va') = s.pteIn pg' (PDX va') (PTX va') from
    hpte pg' hpg' (dirIx va' hva') (tableIx va')]

/-! ### What each call does to the map -/

/-- The directories `D` are paged, show the map `m`, and no counter has wrapped. -/
structure Mapped (D avail held : Finset Nat) (own : Nat → Nat) (l : List Nat) (s : Kernel)
    (m : PageMap) : Prop where
  paging : Paging D avail held own l s
  shows : Shows D s m
  fits : ∀ q, s.refsTo D own q ≤ 65536

namespace Mapped

/-- Fresh directories show the empty map. -/
theorem of_fresh (h : Fresh D avail own s) (hm : MemInv avail held own l s.bare) :
  Mapped D avail held own l s (fun _ => none)
  := by
  have hnone : ∀ pg ∈ D, ∀ d : Fin NUPDE, refOf (s.entry pg d) = none := by
    intro pg hpg d
    apply refOf_eq_none.mpr (h.empty pg hpg d d.isLt)
  have hpte : ∀ pg ∈ D, ∀ (d : Fin NUPDE) t, s.pteIn pg d t = 0 := by
    intro pg hpg d t
    rw [Kernel.pteIn, hnone pg hpg d]
  have hrefs : s.refsIn D own = own := by
    funext q
    have h0 : refCount (places D) s.placeRef q = 0 := by
      apply refCount.eq_zero_iff.mpr
      intro x hx
      have hx' := mem_places.mp hx
      cases x with
      | table pg d =>
          have hpg : pg ∈ D := hx'
          rw [Kernel.placeRef, hnone pg hpg d]
          simp
      | page pg d t =>
          have hpg : pg ∈ D := hx'
          rw [Kernel.placeRef, hpte pg hpg d t, refOf_zero]
          simp
    rw [Kernel.refsIn, h0, Nat.zero_add]
  constructor
  case paging =>
    constructor
    case mem =>
      rw [hrefs]
      apply hm
    case dirs => apply h.dirs
    case apart =>
      intro pg hpg _ _ d _ r hr
      rw [hnone pg hpg d] at hr
      cases hr
    case table_notMem =>
      intro pg hpg d r hr
      rw [hnone pg hpg d] at hr
      cases hr
  case shows =>
    intro pg hpg va hva
    rw [show s.pteIn pg (PDX va) (PTX va) = 0 from hpte pg hpg (dirIx va hva) (tableIx va),
      entryMap_zero]
  case fits =>
    intro q
    have := h.fits q
    rw [Kernel.refsTo, hrefs]
    omega

/-- A new page table leaves the map. -/
theorem withTable {d : Fin NUPDE} (h : Mapped D avail held own (p :: l) s m) (hpg : pg ∈ D)
    (hnone : refOf (s.entry pg d) = none) :
  Mapped D avail held own l (s.withTable pg d p) m
  := by
  constructor
  case paging => apply h.paging.withTable hpg hnone
  case shows => apply h.shows.congr (h.paging.tabled hpg hnone).pteIn
  case fits =>
    intro q
    rw [h.paging.refsTo_withTable hpg hnone]
    have hq := h.fits q
    have h0 := (h.paging.free_unreferenced List.mem_cons_self).2.2.2.1
    by_cases hqp : q = p
    · rw [if_pos hqp, hqp, h0]
      omega
    · rw [if_neg hqp]
      omega

/-- An entry set to a page with room for one more reference assigns to the map. -/
theorem sets {held' : Finset Nat} {l' : List Nat} (h : Mapped D avail held own l s m)
    (hva : va.toNat < UTOP) (hpp : pp ∈ avail) (hperm : perm.toNat < 4096) (hroom : s.refsTo D own pp < 65536) (hpg : pg ∈ D)
    (hs : Sets D s s' pg (dirIx va hva) (tableIx va) (page2pa pp ||| perm ||| PTE_P))
    (hp : Paging D avail held' own l' s') :
  Mapped D avail held' own l' s' (Function.update m (pg, PGNUM va) (some (pp, perm ||| PTE_P)))
  := by
  have hlt := h.paging.avail_lt hpp
  constructor
  case paging => apply hp
  case shows => apply h.shows.update hva (entryMap_mk hlt hperm) hs.pteIn
  case fits => apply Paging.fits_of_sets hs hpg (refOf_mk hlt hperm) h.fits hroom

/-- A page that is mapped stays allocated. -/
theorem not_isFree (h : Mapped D avail held own l s m) (hpg : pg ∈ D) (hva : va.toNat < UTOP)
    {f : Word} (hm : m (pg, PGNUM va) = some (pp, f)) :
  refOf (s.pteIn pg (PDX va) (PTX va)) = some pp ∧ ¬ s.IsFree pp
  := by
  have hsh := h.shows pg hpg va hva
  rw [hm, entryMap, Option.map_eq_some_iff] at hsh
  obtain ⟨q, hq, heq⟩ := hsh
  obtain rfl := (Prod.mk.inj heq).1
  use hq
  rw [h.paging.isFree_iff]
  apply (h.paging.ref_avail (x := .page pg (dirIx va hva) (tableIx va)) (mem_places.mpr hpg) hq).2

/-- Inserting a page with room for one more reference assigns to the map, or fails without
an effect if a page table is needed and no page is free. -/
theorem insert (h : Mapped D avail held own l s m) (hi : Insertion D avail s pg pp va perm)
    (hroom : Room D own s pp) :
  (pageInsert pg pp va perm s = .ok (-E_NO_MEM, s) ∧ s.entry pg (PDX va) &&& PTE_P = 0
      ∧ s.pageFreeList = none) ∨
  (¬ (s.entry pg (PDX va) &&& PTE_P = 0 ∧ s.pageFreeList = none)
    ∧ ∃ s' l', pageInsert pg pp va perm s = .ok (0, s')
      ∧ Mapped D avail (held.erase pp) own l' s'
        (Function.update m (pg, PGNUM va) (some (pp, perm ||| PTE_P)))
      ∧ ∀ f, m (pg, PGNUM va) = some (pp, f) → s'.pages pp = s.pages pp)
  := by
  have hpl : pp ∉ l := by
    rw [← h.paging.isFree_iff]
    apply hi.allocated
  have hlist : s.pageFreeList = none ↔ l = [] := h.paging.mem.pageFreeList_eq_none
  cases hpt : refOf (s.entry pg (PDX va)) with
  | none =>
      cases l with
      | nil =>
          left
          use h.paging.pageInsert_full hpt, refOf_eq_none.mp hpt
          rw [hlist]
      | cons p l =>
          right
          constructor
          · rintro ⟨-, hc⟩
            rw [hlist] at hc
            cases hc
          · obtain ⟨s', heq, hp, ht, hs⟩ :=
              h.paging.pageInsert_new hi.dir hi.va_lt hi.perm_lt hi.page hpl hpt
            have h1 := h.withTable (d := dirIx va hi.va_lt) hi.dir hpt
            use s', l, heq
            constructor
            · apply h1.sets hi.va_lt hi.page hi.perm_lt _ hi.dir hs hp
              have hrefs := h.paging.refsTo_withTable (d := dirIx va hi.va_lt) hi.dir hpt pp
              have hne : pp ≠ p := by
                rintro rfl
                apply hpl List.mem_cons_self
              rw [if_neg hne] at hrefs
              rw [Room] at hroom
              omega
            · intro f hf
              have hq := (h.not_isFree hi.dir hi.va_lt hf).1
              rw [Kernel.pteIn, hpt, refOf_zero] at hq
              cases hq
  | some pt =>
      right
      constructor
      · rintro ⟨hc, -⟩
        rw [refOf_eq_none.mpr hc] at hpt
        cases hpt
      · obtain ⟨s', l', heq, hp, hs, hsame⟩ := h.paging.pageInsert_table hi.dir hi.va_lt hi.perm_lt
          hi.page hpl h.fits hroom hpt
        use s', l', heq
        constructor
        · apply h.sets hi.va_lt hi.page hi.perm_lt hroom hi.dir hs hp
        · intro f hf
          apply hsame (h.not_isFree hi.dir hi.va_lt hf).1

/-- Removing deletes from the map. -/
theorem remove (h : Mapped D avail held own l s m) (hpg : pg ∈ D) (hva : va.toNat < UTOP) :
  ∃ s' l', pageRemove pg va s = .ok ((), s')
    ∧ Mapped D avail held own l' s' (Function.update m (pg, PGNUM va) none)
  := by
  cases hq : refOf (s.pteIn pg (PDX va) (PTX va)) with
  | none =>
      use s, l, h.paging.pageRemove_none hpg hva hq
      have hm : m (pg, PGNUM va) = none := by
        rw [← h.shows pg hpg va hva, entryMap, hq]
        rfl
      rw [← hm, Function.update_eq_self]
      apply h
  | some q =>
      cases hpt : refOf (s.entry pg (PDX va)) with
      | none =>
          rw [Kernel.pteIn, hpt, refOf_zero] at hq
          cases hq
      | some pt =>
          obtain ⟨⟨l', hp⟩, hs⟩ := h.paging.clear (d := dirIx va hva) (t := tableIx va) hpg hpt hq
            (h.fits q)
          use (s.setEntry pt (PTX va) 0).decref q, l', h.paging.pageRemove_some hpg hva hpt hq
          constructor
          case paging => apply hp
          case shows => apply h.shows.update hva entryMap_zero hs.pteIn
          case fits =>
            intro r
            have hr := hs.refsTo hpg own r
            have := h.fits r
            rw [refOf_zero, if_neg (c := none = some r) (by simp)] at hr
            change ((s.setEntry pt (PTX va) 0).decref q).refsTo D own r + _ = _ at hr
            omega

/-- Taking a free page leaves the map. -/
theorem taken (h : Mapped D avail held own (p :: l) s m) :
  Mapped D avail (Insert.insert p held) own l (s.taken p) m
  := by
  constructor
  case paging => apply h.paging.taken
  case shows =>
    apply h.shows.congr
    intro pg hpg
    apply (h.paging.entry_taken hpg).2
  case fits =>
    rw [h.paging.refsTo_taken]
    apply h.fits

/-- Taking a free page is what allocating one does. -/
theorem pageAlloc_eq (h : Mapped D avail held own (p :: l) s m) :
  pageAlloc s = .ok (some p, s.taken p)
  := by
  have hlist : s.pageFreeList = some p := h.paging.mem.chain.1
  have hlt : p < s.npages :=
    h.paging.mem.avail_lt p (h.paging.free_unreferenced List.mem_cons_self).1
  have hn : s.npages ≤ 2 ^ 20 := h.paging.mem.npages_le
  apply pageAlloc_eq_some hlist hlt hn

/-- Allocating a page leaves the map. -/
theorem alloc (h : Mapped D avail held own l s m) {r : Option Nat}
    (heq : pageAlloc s = .ok (r, s')) :
  ∃ held' l', Mapped D avail held' own l' s' m
  := by
  cases l with
  | nil =>
      have hlist : s.pageFreeList = none := h.paging.mem.pageFreeList_eq_none.mpr rfl
      obtain ⟨-, rfl⟩ := Prog.ok_inj (pageAlloc_eq_none hlist) heq
      use held, []
  | cons p l =>
      obtain ⟨-, rfl⟩ := Prog.ok_inj h.pageAlloc_eq heq
      use (Insert.insert p held), l
      apply h.taken

/-- Giving back a page without references leaves the map. -/
theorem free (h : Mapped D avail held own l s m) (hpp : pp ∈ avail) (hfree : ¬ s.IsFree pp)
    (h0 : s.refsTo D own pp = 0) (heq : pageFree pp s = .ok ((), s')) :
  ∃ held' l', Mapped D avail held' own l' s' m
  := by
  rw [h.paging.isFree_iff] at hfree
  have hheld := h.paging.mem_held hpp hfree h0
  obtain ⟨href, hlink⟩ := h.paging.mem.held_page hheld
  obtain ⟨-, rfl⟩ := Prog.ok_inj (pageFree_eq (s := s) href hlink) heq
  use held.erase pp, pp :: l
  constructor
  case paging => apply h.paging.freed hheld
  case shows =>
    apply h.shows.congr
    intro pg _ d t
    rfl
  case fits => apply h.fits

/-- Walking with a page table made on demand leaves the map. -/
theorem walk (h : Mapped D avail held own l s m) (hpg : pg ∈ D) (hva : va.toNat < UTOP)
    {r : Option (Nat × Nat)} (heq : pgdirWalk pg va true s = .ok (r, s')) :
  ∃ held' l', Mapped D avail held' own l' s' m
  := by
  cases hpt : refOf (s.entry pg (PDX va)) with
  | some pt =>
      obtain ⟨-, rfl⟩ := Prog.ok_inj (h.paging.pgdirWalk_ok hpg hva true hpt) heq
      use held, l
  | none =>
      cases l with
      | nil =>
          obtain ⟨-, rfl⟩ := Prog.ok_inj (h.paging.pgdirWalk_full hpt) heq
          use held, []
      | cons p l =>
          obtain ⟨-, rfl⟩ := Prog.ok_inj (h.paging.pgdirWalk_makes hpt) heq
          use held, l
          apply h.withTable (d := dirIx va hva) hpg hpt

end Mapped

/-- The map that a run makes is shown by the entries, as long as pages are inserted with
room for one more reference. -/
theorem MapRun.mapped (h : MapRun D avail own (Room D own) s m) :
  ∃ held l, Mapped D avail held own l s m
  := by
  induction h with
  | start hf =>
      obtain ⟨held, l, hm⟩ := hf.mem
      use held, l
      apply Mapped.of_fresh hf hm
  | alloc _ heq ih =>
      obtain ⟨held, l, hm⟩ := ih
      apply hm.alloc heq
  | free _ hpp hfree h0 heq ih =>
      obtain ⟨held, l, hm⟩ := ih
      apply hm.free hpp hfree h0 heq
  | walk _ hpg hva heq ih =>
      obtain ⟨held, l, hm⟩ := ih
      apply hm.walk hpg hva heq
  | @insert _ _ _ _ pp _ _ _ _ hi hok heq ih =>
      obtain ⟨held, l, hm⟩ := ih
      obtain ⟨hfail, -⟩ | ⟨-, s1, l1, hok1, hm1, -⟩ := hm.insert hi hok
      · obtain ⟨rfl, rfl⟩ := Prog.ok_inj hfail heq
        use held, l
        rw [if_neg (by decide)]
        apply hm
      · obtain ⟨rfl, rfl⟩ := Prog.ok_inj hok1 heq
        rw [if_pos rfl]
        use held.erase pp, l1
  | remove _ hpg _ hva heq ih =>
      obtain ⟨held, l, hm⟩ := ih
      obtain ⟨s1, l1, heq1, hm1⟩ := hm.remove hpg hva
      obtain ⟨-, rfl⟩ := Prog.ok_inj heq1 heq
      use held, l1

/-- What the entries show is refined. -/
theorem Mapped.insertMeets (h : Mapped D avail held own l s m)
    (hi : Insertion D avail s pg pp va perm) (hroom : Room D own s pp) :
  InsertMeets D s m pg pp va perm
  := by
  obtain ⟨hfail, hneed⟩ | ⟨hneed, s1, l1, heq, hm, hsame⟩ := h.insert hi hroom
  · use -E_NO_MEM, s, hfail
    constructor
    · constructor
      · intro _
        apply hneed
      · intro _
        rfl
    · constructor
      · intro _
        rfl
      · intro hc
        apply (hc rfl).elim
  · use 0, s1, heq
    have hne : (0 : Word) ≠ -E_NO_MEM := by decide
    constructor
    · constructor
      · intro hc
        apply (hne hc).elim
      · intro hc
        apply (hneed hc).elim
    · constructor
      · intro hc
        apply (hne hc).elim
      · intro _
        use rfl, hm.shows.lookups hm.paging
        constructor
        · apply (hm.not_isFree hi.dir hi.va_lt (f := perm ||| PTE_P) _).2
          rw [Function.update_self]
        · apply hsame

/-- In every run that inserts pages only while their counters have room, the page tables
refine the map. -/
theorem mapRun_refines (h : MapRun D avail own (Room D own) s m) :
  Refines D avail (Room D own) s m
  := by
  obtain ⟨held, l, hm⟩ := h.mapped
  constructor
  case lookup => apply hm.shows.lookups hm.paging
  case insert =>
    intro pg pp va perm hi hroom
    apply hm.insertMeets hi hroom
  case remove =>
    intro pg hpg va _ hva
    obtain ⟨s', l', heq, hm'⟩ := hm.remove hpg hva
    use s', heq
    apply hm'.shows.lookups hm'.paging

/-! ### Filling page tables with one page -/

/-- The state of the page allocator of `bootKernel n`. -/
theorem bootKernel_memInv {n : Nat} (hn : 71 + n ≤ 2 ^ 20) :
  MemInv (bootAvail n) ∅ (fun _ => 0) (List.range' 71 n) (bootKernel n).bare
  := by
  obtain ⟨s1, heq, ⟨envs, hs1⟩, hfree⟩ := envInit_ok (bootKernel n)
  obtain ⟨l, hm⟩ := ((bootKernel_afterMemInit hn).wf heq).1.mem
  have hchain : Chain (fun p => (s1.pages p).ppLink) s1.pageFreeList (List.range' 71 n) := by
    rw [hs1]
    apply bootKernel_chain
  rw [← hm.chain.unique hchain]
  have hslots : (bootKernel n).bare.slotRef = s1.slotRef := by
    funext x
    have hnone := slotRef_of_free (x := x) (fun e he => (hfree e he).1)
    have hnone' := slotRef_of_free (s := (bootKernel n).bare) (x := x) (fun e _ => rfl)
    cases x with
    | kern d =>
        rw [hs1]
        rfl
    | dir e => rw [hnone (by simp), hnone' (by simp)]
    | table e d => rw [hnone (by simp), hnone' (by simp)]
    | page e d t => rw [hnone (by simp), hnone' (by simp)]
  apply hm.of_store
  · rw [hs1]
    rfl
  · rw [hs1]
    rfl
  · rw [hs1]
    rfl
  · rw [hs1]
    rfl
  · rw [show (bootKernel n).bare.store l ∅ (fun _ => 0) = s1.store l ∅ (fun _ => 0) by
      rw [Kernel.store, Kernel.store, hslots, hs1]
      rfl]
    apply hm.balanced

/-- The directory of the kernel maps nothing below `UTOP` after boot. -/
theorem bootKernel_fresh {n : Nat} (hn : 71 + n ≤ 2 ^ 20) :
  Fresh {4} (bootAvail n) (fun _ => 0) (bootKernel n)
  := by
  constructor
  case mem =>
    use ∅, List.range' 71 n
    apply bootKernel_memInv hn
  case empty =>
    intro pg hpg d hd
    rw [Finset.mem_singleton.mp hpg, entry_memOfWords bootWord _ rfl, bootWord, if_pos rfl,
      if_pos hd]
    · rfl
    · simp only [NUPDE] at hd
      omega
  case dirs =>
    intro pg hpg ha
    rw [Finset.mem_singleton.mp hpg, mem_bootAvail] at ha
    omega
  case fits =>
    intro p
    have hb := (bootKernel_memInv hn).balanced
    have hone : (bootKernel n).bare.refs p ≤ 1 := by
      by_contra hc
      have hpos : 0 < refCount slots (bootKernel n).bare.slotRef p := by
        rw [Kernel.refs] at hc
        omega
      obtain ⟨x, hx, hr⟩ := refCount.pos_iff.mp hpos
      have hnone := slotRef_of_free (s := (bootKernel n).bare) (x := x) (fun e _ => rfl)
      have ho : x.Owns := by
        by_contra ho
        rw [hnone] at hr
        · cases hr
        · rintro d rfl
          apply ho trivial
      have := hb.refCount_owned ho hr
      rw [Kernel.refs] at hc
      simp only [Kernel.store] at this
      omega
    omega

/-- The address of the `k`-th page. -/
def pageAddr (k : Nat) : Word :=
  PGADDR (k / 1024) (k % 1024) 0

/-- The map of the page `71` at the first `k` page numbers of the directory `4`. -/
def firstPages (k : Nat) : PageMap :=
  fun x => if x.1 = 4 ∧ x.2 < k then some (71, 7) else none

/-- The page `71` is mapped at the first `k` pages of the directory `4`, of a kernel with
100 free pages after boot. -/
structure Filled (k : Nat) (held : Finset Nat) (l : List Nat) (s : Kernel) : Prop where
  mapped : Mapped {4} (bootAvail 100) held (fun _ => 0) l s (firstPages k)
  notMem : 71 ∉ l
  refs : s.refsTo {4} (fun _ => 0) 71 = k
  room : 64 ≤ l.length + (k + 1023) / 1024
  tables : ∀ d : Fin NUPDE, refOf (s.entry 4 d) = none ↔ (k + 1023) / 1024 ≤ d

theorem pageAddr_spec {k : Nat} (hk : k < 65536) :
  PDX (pageAddr k) = k / 1024 ∧ PTX (pageAddr k) = k % 1024 ∧ PGNUM (pageAddr k) = k
    ∧ (pageAddr k).toNat % PGSIZE = 0 ∧ (pageAddr k).toNat < UTOP
  := by
  have h1 : PDX (pageAddr k) = k / 1024 := PDX_PGADDR (by omega) (by omega)
  have h2 : PTX (pageAddr k) = k % 1024 := PTX_PGADDR (by omega) (by omega)
  have h3 : (pageAddr k).toNat = _ := PGADDR_toNat (by omega) (by omega)
  use h1, h2
  constructor
  · rw [PGNUM_eq_PDX_PTX, h1, h2]
    omega
  · rw [h3]
    simp only [PGSIZE, UTOP, UENVS, UPAGES, UVPT, ULIM, MMIOBASE, MMIOLIM, KSTACKTOP, KERNBASE,
      PTSIZE]
    omega

/-- Mapping the next page. -/
theorem firstPages_succ (k : Nat) :
  Function.update (firstPages k) (4, k) (some (71, 7 ||| PTE_P)) = firstPages (k + 1)
  := by
  funext ⟨pg, j⟩
  by_cases hj : (pg, j) = (4, k)
  · rw [hj, Function.update_self, firstPages]
    simp
    decide
  · rw [Function.update_of_ne hj, firstPages, firstPages]
    have hiff : (pg = 4 ∧ j < k) ↔ (pg = 4 ∧ j < k + 1) := by
      rw [Prod.mk.injEq] at hj
      omega
    simp only [hiff]

theorem mem_bootAvail_first :
  71 ∈ bootAvail 100
  := by
  rw [mem_bootAvail]
  omega

namespace Filled

variable {k : Nat}

/-- After boot the first free page is taken and nothing is mapped. -/
theorem zero {ok : Kernel → Nat → Prop} :
  ∃ s held l, MapRun {4} (bootAvail 100) (fun _ => 0) ok s (firstPages 0) ∧ Filled 0 held l s
  := by
  have hfresh := bootKernel_fresh (n := 100) (by omega)
  have hmem := bootKernel_memInv (n := 100) (by omega)
  have hempty : firstPages 0 = fun _ => none := by
    funext x
    rw [firstPages, if_neg]
    omega
  rw [show List.range' 71 100 = 71 :: List.range' 72 99 from rfl] at hmem
  have h0 := Mapped.of_fresh hfresh hmem
  rw [hempty]
  use (bootKernel 100).taken 71, {71}, List.range' 72 99
  constructor
  · apply MapRun.alloc (MapRun.start hfresh) h0.pageAlloc_eq
  · constructor
    case mapped =>
      rw [hempty]
      apply h0.taken
    case notMem =>
      rw [List.mem_range'_1]
      omega
    case refs =>
      rw [h0.paging.refsTo_taken]
      apply (h0.paging.free_unreferenced List.mem_cons_self).2.2.2.1
    case room =>
      rw [List.length_range']
      omega
    case tables =>
      intro d
      have hd := d.isLt
      simp only [NUPDE] at hd
      rw [(h0.paging.entry_taken (Finset.mem_singleton_self 4)).1 d (by omega)]
      constructor
      · intro _
        omega
      · intro _
        apply refOf_eq_none.mpr
        apply hfresh.empty 4 (Finset.mem_singleton_self 4) d d.isLt

variable {held : Finset Nat} {l : List Nat} {s : Kernel}

/-- The next page may be inserted. -/
theorem insertion (h : Filled k held l s) (hk : k < 65536) :
  Insertion {4} (bootAvail 100) s 4 71 (pageAddr k) 7
  := by
  obtain ⟨-, -, -, hal, hlt⟩ := pageAddr_spec hk
  constructor
  case dir => apply Finset.mem_singleton_self
  case page => apply mem_bootAvail_first
  case allocated =>
    rw [h.mapped.paging.isFree_iff]
    apply h.notMem
  case aligned => apply hal
  case va_lt => apply hlt
  case perm_lt => decide

/-- Nothing is mapped at the next page. -/
theorem next_none (h : Filled k held l s) (hk : k < 65536) :
  refOf (s.pteIn 4 (PDX (pageAddr k)) (PTX (pageAddr k))) = none
  := by
  obtain ⟨-, -, hnum, -, hlt⟩ := pageAddr_spec hk
  have hsh := h.mapped.shows 4 (Finset.mem_singleton_self 4) (pageAddr k) hlt
  rw [hnum, firstPages, if_neg (by omega), entryMap, Option.map_eq_none_iff] at hsh
  apply hsh

/-- The state after the next page is mapped, given what happened to the page tables. -/
theorem step_of_sets {held' : Finset Nat} {l' : List Nat} {s1 s' : Kernel}
    (h : Filled k held l s) (hk : k < 65536) (h1 : Mapped {4} (bootAvail 100) held (fun _ => 0) l'
      s1 (firstPages k))
    (hrefs : s1.refsTo {4} (fun _ => 0) 71 = k) (hl : ∀ q ∈ l', q ∈ l)
    (hroom : 64 ≤ l'.length + (k + 1 + 1023) / 1024)
    (htables : ∀ d : Fin NUPDE, refOf (s1.entry 4 d) = none ↔ (k + 1 + 1023) / 1024 ≤ d)
    (hnone : refOf (s1.pteIn 4 (PDX (pageAddr k)) (PTX (pageAddr k))) = none)
    (hp : Paging {4} (bootAvail 100) held' (fun _ => 0) l' s')
    (hs : Sets {4} s1 s' 4 (dirIx (pageAddr k) (pageAddr_spec hk).2.2.2.2) (tableIx (pageAddr k))
      (page2pa 71 ||| 7 ||| PTE_P)) :
  Filled (k + 1) held' l' s'
  := by
  obtain ⟨-, -, hnum, -, hlt⟩ := pageAddr_spec hk
  have h4 := Finset.mem_singleton_self 4
  constructor
  case mapped =>
    have hm := h1.sets hlt mem_bootAvail_first (by decide) (by omega) h4 hs hp
    rw [hnum, firstPages_succ] at hm
    apply hm
  case notMem =>
    intro hc
    apply h.notMem (hl 71 hc)
  case refs =>
    have hr := hs.refsTo h4 (fun _ => 0) 71
    rw [refOf_mk (by omega) (by decide), if_pos rfl, if_neg] at hr
    · omega
    · change refOf (s1.pteIn 4 (PDX (pageAddr k)) (PTX (pageAddr k))) ≠ _
      rw [hnone]
      simp
  case room => apply hroom
  case tables =>
    intro d
    rw [hs.entry 4 h4 d]
    apply htables

/-- Inserting the page at the next page number. -/
theorem step (h : Filled k held l s) (hk : k < 65536) :
  ∃ s' held' l', pageInsert 4 71 (pageAddr k) 7 s = .ok (0, s') ∧ Filled (k + 1) held' l' s'
  := by
  obtain ⟨hdx, -, -, -, hlt⟩ := pageAddr_spec hk
  have h4 := Finset.mem_singleton_self 4
  have hnone := h.next_none hk
  have htab := h.tables (dirIx (pageAddr k) hlt)
  rw [show (dirIx (pageAddr k) hlt).val = k / 1024 from hdx] at htab
  have hroom := h.room
  cases hpt : refOf (s.entry 4 (PDX (pageAddr k))) with
  | none =>
      have hk' : (k + 1023) / 1024 ≤ k / 1024 := by
        apply htab.mp
        rw [← hdx]
        apply hpt
      cases l with
      | nil =>
          simp only [List.length_nil] at hroom
          omega
      | cons p l =>
          obtain ⟨s', heq, hp, ht, hs⟩ := h.mapped.paging.pageInsert_new h4 hlt
            (show (7 : Word).toNat < 4096 by decide) mem_bootAvail_first h.notMem hpt
          have h1 := h.mapped.withTable (d := dirIx (pageAddr k) hlt) h4 hpt
          have hne : (71 : Nat) ≠ p := by
            rintro rfl
            apply h.notMem List.mem_cons_self
          have hrefs := h.mapped.paging.refsTo_withTable (d := dirIx (pageAddr k) hlt) h4 hpt 71
          rw [if_neg hne, h.refs] at hrefs
          have hplt := h.mapped.paging.avail_lt
            (h.mapped.paging.free_unreferenced List.mem_cons_self).1
          rw [List.length_cons] at hroom
          use s', held.erase 71, l, heq
          apply h.step_of_sets hk h1 hrefs _ _ _ _ hp hs
          · intro q hq
            apply List.mem_cons_of_mem p hq
          · omega
          · intro d
            rw [ht.entry 4 h4 d]
            have hd := h.tables d
            by_cases hdd : d = dirIx (pageAddr k) hlt
            · have hv : d.val = k / 1024 := by
                rw [hdd]
                apply hdx
              rw [if_pos ⟨rfl, hdd⟩, refOf_tableEntry hplt]
              constructor
              · intro hc
                cases hc
              · intro hc
                omega
            · have hv : d.val ≠ k / 1024 := by
                intro hv
                apply hdd (Fin.ext (hv.trans hdx.symm))
              rw [if_neg (fun hc => hdd hc.2), hd]
              omega
          · rw [show (s.withTable 4 (dirIx (pageAddr k) hlt) p).pteIn 4 (PDX (pageAddr k))
              (PTX (pageAddr k)) = s.pteIn 4 (PDX (pageAddr k)) (PTX (pageAddr k)) from
              ht.pteIn 4 h4 (dirIx (pageAddr k) hlt) (tableIx (pageAddr k))]
            apply hnone
  | some pt =>
      have hk' : ¬ (k + 1023) / 1024 ≤ k / 1024 := by
        intro hc
        have := htab.mpr hc
        rw [← hdx, hpt] at this
        cases this
      obtain ⟨hp, hs⟩ := h.mapped.paging.fill (d := dirIx (pageAddr k) hlt)
        (t := tableIx (pageAddr k)) h4 hpt hnone mem_bootAvail_first h.notMem
        (refOf_mk (by omega) (show (7 : Word).toNat < 4096 by decide))
      use (s.setEntry pt (PTX (pageAddr k)) (page2pa 71 ||| 7 ||| PTE_P)).incref 71, held.erase 71, l
      use h.mapped.paging.pageInsert_empty h4 hlt hpt hnone
      apply h.step_of_sets hk h.mapped h.refs (fun q hq => hq) _ _ hnone hp hs
      · omega
      · intro d
        rw [h.tables d]
        omega

/-- The page can be mapped at the first 65536 pages. -/
theorem exists_run {ok : Kernel → Nat → Prop}
    (hok : ∀ s pp, Room {4} (fun _ => 0) s pp → ok s pp) (k : Nat) (hk : k ≤ 65536) :
  ∃ s held l, MapRun {4} (bootAvail 100) (fun _ => 0) ok s (firstPages k) ∧ Filled k held l s
  := by
  induction k with
  | zero => apply zero
  | succ k ih =>
      obtain ⟨s, held, l, hrun, h⟩ := ih (by omega)
      obtain ⟨s', held', l', heq, h'⟩ := h.step (by omega)
      use s', held', l'
      constructor
      · have hroom : Room {4} (fun _ => 0) s 71 := by
          rw [Room, h.refs]
          omega
        have hrun' := MapRun.insert hrun (h.insertion (by omega)) (hok s 71 hroom) heq
        rw [if_pos rfl, (pageAddr_spec (by omega)).2.2.1, firstPages_succ] at hrun'
        apply hrun'
      · apply h'

/-- A page with 65536 references is free after it is inserted where it is mapped. -/
theorem isFree_of_full (h : Filled 65536 held l s) :
  ∃ s', pageInsert 4 71 (pageAddr 0) 7 s = .ok (0, s') ∧ s'.IsFree 71
  := by
  obtain ⟨-, -, hnum, -, hlt⟩ := pageAddr_spec (k := 0) (by omega)
  have h4 := Finset.mem_singleton_self 4
  obtain ⟨hq, -⟩ := h.mapped.not_isFree (f := 7) h4 hlt (by rw [hnum]; rfl)
  cases hpt : refOf (s.entry 4 (PDX (pageAddr 0))) with
  | none =>
      rw [Kernel.pteIn, hpt, refOf_zero] at hq
      cases hq
  | some pt =>
      have heq : pageInsert 4 71 (pageAddr 0) 7 s = _ :=
        h.mapped.paging.pageInsert_mapped h4 hlt hpt hq mem_bootAvail_first h.notMem
      use (((s.incref 71).setEntry pt (PTX (pageAddr 0)) 0).decref 71).setEntry pt
        (PTX (pageAddr 0)) (page2pa 71 ||| 7 ||| PTE_P), heq
      have hc := h.mapped.paging.counted mem_bootAvail_first
      rw [h.refs] at hc
      -- The counter wrapped to zero, so the reference that was added is the last to be given up.
      have hone : ((s.incref 71).pages 71).ppRef = 1 := by
        simp only [Kernel.incref, Kernel.setPage, Function.update_self]
        omega
      rw [decref_eq_freed (s := (s.incref 71).setEntry pt (PTX (pageAddr 0)) 0)
        (by change (((s.incref 71).pages 71).ppRef + 65535) % 65536 = 0; rw [hone])]
      use 71 :: l
      constructor
      · apply (h.mapped.paging.mem.chain.push h.notMem).congr
        intro q _
        by_cases hq71 : q = 71
        · rw [hq71]
          simp only [Kernel.setEntry, Function.update_self]
          rfl
        · simp only [Kernel.setEntry, Function.update_of_ne hq71, Kernel.incref, Kernel.setPage]
          rfl
      · apply List.mem_cons_self

end Filled

/-- A page mapped once, and the map that the page tables refine then. -/
theorem mapRun_refines_first :
  ∃ s, MapRun {4} (bootAvail 100) (fun _ => 0) (Room {4} (fun _ => 0)) s (firstPages 1)
    ∧ firstPages 1 (4, 0) = some (71, 7)
    ∧ Refines {4} (bootAvail 100) (Room {4} (fun _ => 0)) s (firstPages 1)
  := by
  obtain ⟨s, held, l, hrun, -⟩ := Filled.exists_run (fun _ _ h => h) 1 (by omega)
  use s, hrun, rfl
  apply mapRun_refines hrun

/-- Without a bound on the references to a page, the page tables do not refine the map:
a page that is mapped 65536 times is freed when it is inserted where it is mapped. -/
theorem not_mapRun_refines :
  ¬ ∀ (D avail : Finset Nat) (own : Nat → Nat) (s : Kernel) (m : PageMap),
    MapRun D avail own (fun _ _ => True) s m → Refines D avail (fun _ _ => True) s m
  := by
  intro hall
  obtain ⟨s, held, l, hrun, h⟩ := Filled.exists_run (fun _ _ _ => trivial) 65536 (by omega)
  have hr := hall _ _ _ _ _ hrun
  obtain ⟨-, -, hnum, hal, hlt⟩ := pageAddr_spec (k := 0) (by omega)
  have hi : Insertion {4} (bootAvail 100) s 4 71 (pageAddr 0) 7 := by
    constructor
    case dir => apply Finset.mem_singleton_self
    case page => apply mem_bootAvail_first
    case allocated =>
      rw [h.mapped.paging.isFree_iff]
      apply h.notMem
    case aligned => apply hal
    case va_lt => apply hlt
    case perm_lt => decide
  obtain ⟨s', heq, hfree⟩ := h.isFree_of_full
  obtain ⟨r, s1, heq1, -, -, hmeets⟩ := hr.insert 4 71 (pageAddr 0) 7 hi trivial
  obtain ⟨rfl, rfl⟩ := Prog.ok_inj heq heq1
  apply (hmeets (by decide)).2.2.1 hfree

end Jos
