import Jos.Kern.Pages

/-!
# Mapping and unmapping pages

Walking, looking up, inserting and removing page table entries: each returns without a
panic, keeps the invariant of the page allocator, and edits exactly the entry it is
asked to edit.
-/

namespace Jos

open Bytes

variable {avail held : Finset Nat} {own : Nat → Nat} {l : List Nat} {s s' s'' : Kernel}

/-- The position of the page table entry for an address below `UTOP`. -/
def pteAddr (e : Fin NENV) (va : Word) (h : va.toNat < UTOP) : PteAddr :=
  (e, ⟨PDX va, PDX_lt_of_lt_UTOP h⟩, ⟨PTX va, PTX_lt va⟩)

theorem ptes_pteAddr (s : Kernel) (e : Fin NENV) {va : Word} (h : va.toNat < UTOP) :
  s.ptes (pteAddr e va h) = s.pteAt e va
  := rfl

/-! ### Edits -/

theorem Edit.refl (s : Kernel) :
  Edit held s s s.ptes
  := by
  constructor
  case quiet => apply Quiet.refl
  case ptes => rfl
  case pde =>
    intro e d
    left; rfl
  case upper =>
    intro e d _ _
    rfl
  case kern =>
    intro d _
    rfl
  case keeps =>
    intro q _ o _
    rfl

/-- A change of the page structures after an edit. -/
theorem Edit.trans_mem {f : PteAddr → Word} (h : Edit held s s' f) (hq : Quiet s' s'')
    (hm : s''.mem = s'.mem) :
  Edit held s s'' f
  := by
  have hentry : ∀ p i, s''.entry p i = s'.entry p i := by
    intro p i
    rw [Kernel.entry, Kernel.entry, hm]
  have hpde : ∀ e d, s''.pde e d = s'.pde e d := by
    intro e d
    simp only [Kernel.pde, hq.pgdir, hentry]
  constructor
  case quiet => apply h.quiet.trans hq
  case ptes =>
    rw [← h.ptes]
    funext a
    simp only [Kernel.ptes, Kernel.pte, hpde, hentry]
  case pde =>
    intro e d
    rw [hpde]
    apply h.pde
  case upper =>
    intro e d hd hd'
    rw [hpde, h.upper e d hd hd']
  case kern =>
    intro d hd
    rw [hentry, h.kern d hd]
  case keeps =>
    intro q hq' o ho
    rw [hm, h.keeps q hq' o ho]

/-- A change of the page structures is no edit of page table entries. -/
theorem Edit.of_mem (hq : Quiet s s') (hm : s'.mem = s.mem) :
  Edit held s s' s.ptes
  := (Edit.refl s).trans_mem hq hm

/-- What an edit does to the entries decides which pages may be mapped. -/
theorem Edit.shareable (h : Edit held s s' s.ptes) {q : Nat} :
  s'.Shareable held q ↔ s.Shareable held q
  := by
  have hy : ∀ y, ¬ Slot.Owns y → s'.slotRef y = s.slotRef y := by
    intro y hy
    cases y with
    | dir e => apply (hy trivial).elim
    | table e d => apply (hy trivial).elim
    | page e d t =>
        have := congrFun h.ptes (e, d, t)
        simp only [Kernel.ptes] at this
        rw [Kernel.slotRef, Kernel.slotRef, this]
    | kern d => apply (hy trivial).elim
  simp only [Kernel.Shareable]
  constructor
  · rintro (hh | ⟨y, hy', hr⟩)
    · left; apply hh
    · right; use y, hy'; rw [← hy y hy']; apply hr
  · rintro (hh | ⟨y, hy', hr⟩)
    · left; apply hh
    · right; use y, hy'; rw [hy y hy']; apply hr

/-- An edit after a change that edits no entry. -/
theorem Edit.trans {f : PteAddr → Word} (h : Edit held s s' s.ptes) (h' : Edit held s' s'' f) :
  Edit held s s'' f
  := by
  constructor
  case quiet => apply h.quiet.trans h'.quiet
  case ptes => apply h'.ptes
  case pde =>
    intro e d
    obtain heq | ⟨hnone, p, hp, hp'⟩ := h.pde e d
    · rw [← heq]
      apply h'.pde e d
    · obtain heq' | ⟨hnone', -⟩ := h'.pde e d
      · right
        use hnone, p, hp
        rw [heq', hp']
      · rw [hp', refOf_tableEntry hp] at hnone'
        cases hnone'
  case upper =>
    intro e d hd hd'
    rw [h'.upper e d hd hd', h.upper e d hd hd']
  case kern =>
    intro d hd
    have := h'.kern d hd
    rw [h.quiet.kernPgdir] at this
    rw [this, h.kern d hd]
  case keeps =>
    intro q hq o ho
    rw [h'.keeps q (h.shareable.mpr hq) o ho, h.keeps q hq o ho]

/-- A page that may be mapped is no page of the paging structures. -/
theorem MemInv.not_isTable_of_shareable (h : MemInv avail held own l s) {q : Nat}
    (hq : s.Shareable held q) :
  ¬ s.IsTable q
  := by
  obtain hh | ⟨y, hy, hr⟩ := hq
  · apply Kernel.not_isTable_of_held h hh
  · rintro (rfl | ⟨x, hx, hxr⟩)
    · apply Kernel.ne_kernPgdir h hr rfl
    · apply Kernel.ref_ne_of_owns h hxr hx hr
      · rintro rfl
        apply hy hx
      · rfl

/-- Setting an entry of a page table. -/
theorem Edit.setPte (h : MemInv avail held own l s) {e : Fin NENV} {d : Fin NUPDE} {pt : Nat}
    (hpt : refOf (s.pde e d) = some pt) (t : Fin NPTENTRIES) (w : Word) :
  Edit held s (s.setEntry pt t w) (Function.update s.ptes (e, d, t) w)
  := by
  constructor
  case quiet => rfl
  case ptes =>
    funext ⟨e', d', t'⟩
    simp only [Kernel.ptes]
    rw [Kernel.setPte_pte h hpt t w e' d' t']
    by_cases ha : (e', d', t') = (e, d, t)
    · cases ha
      rw [if_pos rfl, Function.update_self]
    · rw [Function.update_of_ne ha, if_neg]
      · rfl
      · intro hs
        obtain ⟨rfl, rfl, rfl⟩ := Slot.page.inj hs
        apply ha rfl
  case pde =>
    intro e' d'
    have hd' := d'.isLt
    simp only [NUPDE] at hd'
    left
    apply Kernel.setPte_pde h hpt t w e' (by omega)
  case upper =>
    intro e' d' _ hd'
    apply Kernel.setPte_pde h hpt t w e' hd'
  case kern =>
    intro d' hd'
    apply Kernel.entry_setEntry_of_ne s w t.isLt hd'
    left
    apply (Kernel.ne_kernPgdir h (x := .table e d) hpt).symm
  case keeps =>
    intro q hq o ho
    apply Bytes.write32_of_disjoint
    have ht := t.isLt
    simp only [NPTENTRIES, PGSIZE] at ht ho ⊢
    have hne : q ≠ pt := by
      rintro rfl
      apply h.not_isTable_of_shareable hq
      right
      use .table e d, trivial
      apply hpt
    omega

/-- Setting the entry of an address whose page table exists. -/
theorem Edit.setPteAt (h : MemInv avail held own l s) {e : Fin NENV} {va : Word}
    (hva : va.toNat < UTOP) {pt : Nat} (hpt : refOf (s.pde e (PDX va)) = some pt) (w : Word) :
  Edit held s (s.setEntry pt (PTX va) w) (Function.update s.ptes (pteAddr e va hva) w)
  := Edit.setPte h (d := ⟨PDX va, PDX_lt_of_lt_UTOP hva⟩) hpt ⟨PTX va, PTX_lt va⟩ w

/-- Counting a reference after an edit. -/
theorem Edit.incref {f : PteAddr → Word} (h : Edit held s s' f) (p : Nat) :
  Edit held s (s'.incref p) f
  := by
  have hq : Quiet s' (s'.incref p) := rfl
  apply h.trans_mem hq rfl

/-- Giving up a reference after an edit. -/
theorem Edit.decref {f : PteAddr → Word} (h : Edit held s s' f) (p : Nat) :
  Edit held s (s'.decref p) f
  := by
  obtain ⟨hq, hm⟩ := decref_quiet (s := s') p
  apply h.trans_mem hq hm

/-! ### References changing hands -/

/-- A slot takes over a reference the running code has. -/
theorem MemInv.attach {x : Slot} {p : Nat} (h : MemInv avail held own l s)
    (href : s'.slotRef = Function.update s.slotRef x (some p)) (hpages : s'.pages = s.pages)
    (hlist : s'.pageFreeList = s.pageFreeList) (hn : s'.npages = s.npages)
    (hkern : s'.kernPgdir = s.kernPgdir) (hx : s.slotRef x = none) (hp : 0 < own p)
    (hu : ∀ y, s.slotRef y = some p → ¬ y.Owns) (ho : x.Owns → ∀ y, s.slotRef y ≠ some p) :
  MemInv avail held (Function.update own p (own p - 1)) l s'
  := by
  apply h.of_store hpages hlist hn hkern
  have hb := h.balanced.attach (mem_slots x) hx hp hu ho
  rw [show s'.store l held (Function.update own p (own p - 1))
      = (s.store l held own).attach x p by
    rw [Kernel.store, href, hpages]
    rfl]
  apply hb

/-- The running code takes over the reference of a slot. -/
theorem MemInv.detach {x : Slot} {p : Nat} (h : MemInv avail held own l s)
    (href : s'.slotRef = Function.update s.slotRef x none) (hpages : s'.pages = s.pages)
    (hlist : s'.pageFreeList = s.pageFreeList) (hn : s'.npages = s.npages)
    (hkern : s'.kernPgdir = s.kernPgdir) (hx : s.slotRef x = some p) :
  MemInv avail held (Function.update own p (own p + 1)) l s'
  := by
  apply h.of_store hpages hlist hn hkern
  have hb := h.balanced.detach hx
  rw [show s'.store l held (Function.update own p (own p + 1))
      = (s.store l held own).detach x p by
    rw [Kernel.store, href, hpages]
    rfl]
  apply hb

/-- The references to a page after one slot changes. -/
theorem refs_update {x : Slot} {v : Option Nat}
    (href : s'.slotRef = Function.update s.slotRef x v) (q : Nat) :
  s'.refs q + (if s.slotRef x = some q then 1 else 0)
    = s.refs q + (if v = some q then 1 else 0)
  := by
  rw [Kernel.refs, Kernel.refs, href]
  apply refCount.update _ _ _ (mem_slots x)

theorem refs_sameTables (h : s.SameTables s') (q : Nat) :
  s'.refs q = s.refs q
  := by
  rw [Kernel.refs, Kernel.refs, h.slotRef]

theorem incref_sameTables (p : Nat) :
  s.SameTables (s.incref p)
  := Kernel.SameTables.of_mem rfl rfl rfl

theorem isTable_sameTables (h : s.SameTables s') (r : Nat) :
  s'.IsTable r ↔ s.IsTable r
  := by
  rw [Kernel.IsTable, Kernel.IsTable, h.slotRef, h.kernPgdir]

/-- A page is mappable when it is available, not free, and no page of the paging
structures. -/
def Kernel.Mappable (avail : Finset Nat) (l : List Nat) (s : Kernel) (p : Nat) : Prop :=
  p ∈ avail ∧ p ∉ l ∧ ∀ y, s.slotRef y = some p → ¬ y.Owns

/-- A page that is held or mapped is mappable. -/
theorem MemInv.shareable (h : MemInv avail held own l s) {p : Nat} (hp : s.Shareable held p) :
  s.Mappable avail l p
  := h.balanced.shareable hp

/-! ### Walking page tables -/

/-- The state after the free page `p` becomes the page table of an empty directory entry. -/
def Kernel.withTable (s : Kernel) (pg d p : Nat) : Kernel :=
  ((s.taken p).incref p).setEntry pg d (tableEntry p)

theorem pgdirWalk_eq_some {pg pt : Nat} {va : Word} (create : Bool)
    (hpt : refOf (s.entry pg (PDX va)) = some pt) (hlt : pt < s.npages) :
  pgdirWalk pg va create s = .ok (some (pt, PTX va), s)
  := by
  obtain ⟨hp, hpage⟩ := refOf_eq_some.mp hpt
  have hk : PGNUM (PTE_ADDR (s.entry pg (PDX va))) = pt := hpage
  rw [pgdirWalk, Prog.get_bind, if_neg hp, Prog.bind_of_eq (KADDR_eq (by omega)), hk]
  rfl

theorem pgdirWalk_eq_none {pg : Nat} {va : Word} (hpt : refOf (s.entry pg (PDX va)) = none) :
  pgdirWalk pg va false s = .ok (none, s)
  := by
  rw [pgdirWalk, Prog.get_bind, if_pos (refOf_eq_none.mp hpt), if_pos rfl]
  rfl

theorem pgdirWalk_create_of_none {pg : Nat} {va : Word} (hlist : s.pageFreeList = none)
    (hpt : refOf (s.entry pg (PDX va)) = none) :
  pgdirWalk pg va true s = .ok (none, s)
  := by
  rw [pgdirWalk, Prog.get_bind, if_pos (refOf_eq_none.mp hpt), if_neg (by simp),
    Prog.bind_of_eq (pageAlloc_eq_none hlist)]
  rfl

theorem pgdirWalk_create_of_some {pg p : Nat} {va : Word} (hlist : s.pageFreeList = some p)
    (hlt : p < s.npages) (hn : s.npages ≤ 2 ^ 20)
    (hpt : refOf (s.entry pg (PDX va)) = none) :
  pgdirWalk pg va true s = .ok (some (p, PTX va), s.withTable pg (PDX va) p)
  := by
  have hpa : PGNUM (page2pa p) = p := PGNUM_page2pa (by omega)
  rw [pgdirWalk, Prog.get_bind, if_pos (refOf_eq_none.mp hpt), if_neg (by simp),
    Prog.bind_of_eq (pageAlloc_eq_some hlist hlt hn)]
  simp only
  rw [Prog.bind_of_eq (pageIncref_eq p), Prog.modify_bind, Prog.bind_of_eq (KADDR_eq _), hpa]
  · rfl
  · rw [hpa]
    apply hlt

theorem pgdirWalk_create_eq_none {pg : Nat} {va : Word} (h : MemInv avail held own [] s)
    (hpt : refOf (s.entry pg (PDX va)) = none) :
  pgdirWalk pg va true s = .ok (none, s)
  := pgdirWalk_create_of_none (h.pageFreeList_eq_none.mpr rfl) hpt

theorem pgdirWalk_create_eq_some {pg p : Nat} {va : Word} (h : MemInv avail held own (p :: l) s)
    (hpt : refOf (s.entry pg (PDX va)) = none) :
  pgdirWalk pg va true s = .ok (some (p, PTX va), s.withTable pg (PDX va) p)
  := by
  have hlt := h.avail_lt p (h.refs_free List.mem_cons_self).1
  apply pgdirWalk_create_of_some h.chain.1 hlt h.npages_le hpt

section WithTable

variable {p pg : Nat} (h : MemInv avail held own (p :: l) s) {e : Fin NENV} {d : Fin NUPDE}
  (hpg : s.pgdir e = some pg) (hnone : refOf (s.pde e d) = none)
include h hpg hnone

/-- What the slots refer to after a page table is added. -/
theorem withTable_slotRef :
  (s.withTable pg d p).slotRef = Function.update s.slotRef (.table e d) (some p)
    ∧ (∀ (e' : Fin NENV) d', d' < 1024 → (s.withTable pg d p).pde e' d'
        = if e' = e ∧ d' = d then tableEntry p else s.pde e' d')
    ∧ (s.withTable pg d p).ptes = s.ptes
  := by
  have hp := h.refs_free List.mem_cons_self
  have hn := h.npages_le
  have hlt := h.avail_lt p hp.1
  have ht := h.taken_sameTables
  have ht' : s.SameTables ((s.taken p).incref p) := by
    have hi := incref_sameTables (s := s.taken p) p
    constructor
    case envs => rw [hi.envs, ht.envs]
    case kernPgdir => rw [hi.kernPgdir, ht.kernPgdir]
    case entry =>
      intro r hr i hi'
      rw [hi.entry r ((isTable_sameTables ht r).mpr hr) i hi', ht.entry r hr i hi']
  have hp' : p ∉ l := (List.nodup_cons.mp h.balanced.nodup).1
  have h' := h.taken.incref hp.1 hp'
  have hpg' : ((s.taken p).incref p).pgdir e = some pg := by
    rw [ht'.pgdir]
    apply hpg
  have hd := d.isLt
  simp only [NUPDE] at hd
  have hnt : ¬ ((s.taken p).incref p).IsTable p := by
    rw [isTable_sameTables ht']
    apply Kernel.not_isTable h hp.1 hp.2.2.1
  have hzero : ∀ i < 1024, ((s.taken p).incref p).entry p i = 0 := by
    intro i hi
    apply entry_taken p hi
  have hte := refOf_tableEntry (p := p) (by omega)
  have hold : ∀ t, ((s.taken p).incref p).pte e d t = 0 := by
    intro t
    rw [Kernel.pte, ht'.pde e (by omega), hnone]
  have hnew := Kernel.setPde_pte h' hpg' (d := d) hnt hzero hte
  constructor
  · rw [Kernel.withTable, Kernel.setPde_slotRef h' hpg', ht'.slotRef, hte]
    · intro t
      rw [hold, refOf_zero]
    · intro t
      rw [hnew, refOf_zero]
  · constructor
    · intro e' d' hd'
      rw [Kernel.withTable, Kernel.setPde_pde h' hpg' _ e' hd', ht'.pde e' hd']
    · funext a
      obtain ⟨e', d', t'⟩ := a
      simp only [Kernel.ptes]
      by_cases he : Slot.table e' d' = .table e d
      · obtain ⟨rfl, rfl⟩ := Slot.table.inj he
        rw [Kernel.withTable, hnew, Kernel.pte, hnone]
      · rw [Kernel.withTable, Kernel.setPde_pte_of_ne h' hpg' _ e' d' t' he, ht'.pte e' d' t'.isLt]

/-- Adding a page table keeps the invariant. -/
theorem MemInv.withTable :
  MemInv avail held own l (s.withTable pg d p)
  := by
  have hp := h.refs_free List.mem_cons_self
  have hp' : p ∉ l := (List.nodup_cons.mp h.balanced.nodup).1
  have h' := h.taken.incref hp.1 hp'
  have ht := h.taken_sameTables
  have href : ((s.taken p).incref p).slotRef = s.slotRef := by
    rw [(incref_sameTables p).slotRef, ht.slotRef]
  have hu : ∀ y, s.slotRef y ≠ some p := by
    intro y
    have := hp.2.2.1
    rw [Kernel.refs, refCount.eq_zero_iff] at this
    apply this y (mem_slots y)
  rw [← href] at hu
  have hnew : MemInv avail ((insert p held).erase p) _ l (s.withTable pg d p) := h'.attach
    (by rw [href, (withTable_slotRef h hpg hnone).1]) rfl rfl rfl rfl (by rw [href]; apply hnone)
    (by simp) (fun y hy => (hu y hy).elim) (fun _ => hu)
  rw [Finset.erase_insert hp.2.1] at hnew
  simp only [Function.update_self, Nat.add_sub_cancel, Function.update_idem] at hnew
  rw [Function.update_eq_self] at hnew
  apply hnew

/-- Adding a page table edits no page table entry. -/
theorem Edit.withTable :
  Edit held s (s.withTable pg d p) s.ptes
  := by
  have hp := h.refs_free List.mem_cons_self
  have hn := h.npages_le
  have hlt := h.avail_lt p hp.1
  have hd := d.isLt
  simp only [NUPDE] at hd
  obtain ⟨-, hpde, hptes⟩ := withTable_slotRef h hpg hnone
  constructor
  case quiet => rfl
  case ptes => apply hptes
  case pde =>
    intro e' d'
    have hd' := d'.isLt
    simp only [NUPDE] at hd'
    rw [hpde e' d' (by omega)]
    by_cases he : e' = e ∧ d'.val = d
    · rw [if_pos he]
      obtain ⟨rfl, hdd⟩ := he
      obtain rfl := Fin.ext hdd
      right
      use hnone, p, by omega
    · rw [if_neg he]
      left; rfl
  case upper =>
    intro e' d' hd1 hd2
    simp only [NUPDE] at hd1
    rw [hpde e' d' hd2, if_neg]
    rintro ⟨-, rfl⟩
    omega
  case kern =>
    intro d' hd'
    rw [Kernel.withTable, Kernel.entry_setEntry_of_ne _ _ (by omega) hd']
    · apply h.taken_sameTables.entry _ (Or.inl rfl) d' hd'
    · left
      apply (Kernel.ne_kernPgdir h (x := .dir e) hpg).symm
  case keeps =>
    intro q hq o ho
    simp only [PGSIZE] at ho
    have hqpg : q ≠ pg := by
      rintro rfl
      apply h.not_isTable_of_shareable hq
      right
      use .dir e, trivial
      apply hpg
    have hqp : q ≠ p := by
      rintro rfl
      apply (h.shareable hq).2.1 List.mem_cons_self
    simp only [Kernel.withTable, Kernel.setEntry]
    rw [Bytes.write32_of_disjoint _ _ (by simp only [PGSIZE]; omega)]
    simp only [Kernel.incref, Kernel.setPage, Kernel.taken, Kernel.zeroPage, Bytes.fill, PGSIZE]
    rw [if_neg (by omega)]

/-- Mappable pages stay mappable when a page table is added. -/
theorem mappable_withTable {q : Nat} (hq : s.Mappable avail (p :: l) q) :
  (s.withTable pg d p).Mappable avail l q
  := by
  obtain ⟨hqp, hql⟩ := not_or.mp (fun hm => hq.2.1 (List.mem_cons.mpr hm))
  use hq.1, hql
  rw [(withTable_slotRef h hpg hnone).1]
  intro y hy
  by_cases hyx : y = .table e d
  · rw [hyx, Function.update_self] at hy
    apply (hqp (Option.some.inj hy).symm).elim
  · rw [Function.update_of_ne hyx] at hy
    apply hq.2.2 y hy

end WithTable

/-! ### Looking up and removing -/

section Lookup

variable (h : MemInv avail held own l s) {e : Fin NENV} {pg : Nat} {va : Word}
  (hpg : s.pgdir e = some pg) (hva : va.toNat < UTOP)
include h hpg hva

/-- Walking to an address whose page table exists. -/
theorem pgdirWalk_ok {pt : Nat} (create : Bool) (hpt : refOf (s.pde e (PDX va)) = some pt) :
  pgdirWalk pg va create s = .ok (some (pt, PTX va), s)
  := by
  apply pgdirWalk_eq_some
  · rw [Kernel.pde, hpg] at hpt
    apply hpt
  · apply Kernel.lt_npages h (x := .table e ⟨PDX va, PDX_lt_of_lt_UTOP hva⟩) hpt

/-- Nothing is found at an address that is not mapped. -/
theorem pageLookup_eq_none (hnone : refOf (s.pteAt e va) = none) :
  pageLookup pg va s = .ok (none, s)
  := by
  cases hpt : refOf (s.pde e (PDX va)) with
  | none =>
      rw [Kernel.pde, hpg] at hpt
      rw [pageLookup, Prog.bind_of_eq (pgdirWalk_eq_none hpt)]
      rfl
  | some pt =>
      rw [Kernel.pteAt, Kernel.pte, hpt] at hnone
      rw [pageLookup, Prog.bind_of_eq (pgdirWalk_ok h hpg hva false hpt)]
      simp only
      rw [Prog.get_bind, if_pos (refOf_eq_none.mp hnone)]
      rfl

/-- At a mapped address the page is found with its page table entry. -/
theorem pageLookup_eq_some {q : Nat} (hq : refOf (s.pteAt e va) = some q) :
  ∃ pt, refOf (s.pde e (PDX va)) = some pt ∧ s.entry pt (PTX va) = s.pteAt e va
    ∧ pageLookup pg va s = .ok (some (q, (pt, PTX va)), s)
  := by
  cases hpt : refOf (s.pde e (PDX va)) with
  | none =>
      rw [Kernel.pteAt, Kernel.pte, hpt, refOf_zero] at hq
      cases hq
  | some pt =>
      have hlt := Kernel.lt_npages h (p := q)
        (x := .page e ⟨PDX va, PDX_lt_of_lt_UTOP hva⟩ ⟨PTX va, PTX_lt va⟩) hq
      have hpte : s.pteAt e va = s.entry pt (PTX va) := by
        rw [Kernel.pteAt, Kernel.pte, hpt]
      rw [hpte] at hq
      obtain ⟨hp, hpage⟩ := refOf_eq_some.mp hq
      have hk : PGNUM (PTE_ADDR (s.entry pt (PTX va))) = q := hpage
      use pt, rfl, hpte.symm
      rw [pageLookup, Prog.bind_of_eq (pgdirWalk_ok h hpg hva false hpt)]
      simp only
      rw [Prog.get_bind, if_neg hp, Prog.bind_of_eq (pa2page_eq (by omega)), hk]
      rfl

/-- The page table entries after the entry at `a` is cleared if it is present. -/
def Kernel.cleared (s : Kernel) (a : PteAddr) : PteAddr → Word :=
  if refOf (s.ptes a) = none then s.ptes else Function.update s.ptes a 0

omit h hpg hva in
/-- A mapped page is not on the free list. -/
theorem MemInv.mapped_notMem (h : MemInv avail held own l s) {x : Slot} {q : Nat}
    (hq : s.slotRef x = some q) :
  q ∉ l
  := h.balanced.not_free hq

omit hpg in
/-- Clearing a page table entry and giving up the reference it held keeps the invariant. -/
theorem MemInv.clearPte {pt q : Nat} (hpt : refOf (s.pde e (PDX va)) = some pt)
    (hq : refOf (s.pteAt e va) = some q) (hfits : s.refs q + own q ≤ 65536) :
  ∃ l', MemInv avail held own l' ((s.setEntry pt (PTX va) 0).decref q)
  := by
  have href := Kernel.setPte_slotRef h (d := ⟨PDX va, PDX_lt_of_lt_UTOP hva⟩) hpt
    ⟨PTX va, PTX_lt va⟩ 0
  rw [refOf_zero] at href
  have h' := h.detach href rfl rfl rfl rfl hq
  have hr := refs_update href q
  rw [if_pos, if_neg (by simp)] at hr
  · obtain ⟨l', h''⟩ := h'.decref (p := q) (by simp) (by rw [Function.update_self]; omega)
    use l'
    simp only [Function.update_self, Nat.add_sub_cancel, Function.update_idem] at h''
    rw [Function.update_eq_self] at h''
    apply h''
  · apply hq

/-- Removing a mapping returns, clears the entry, and keeps the invariant. -/
theorem pageRemove_ok :
  ∃ s', pageRemove pg va s = .ok ((), s') ∧ Edit held s s' (s.cleared (pteAddr e va hva))
    ∧ (∀ (e' : Fin NENV) d', d' < 1024 → s'.pde e' d' = s.pde e' d')
    ∧ ((∀ q, refOf (s.pteAt e va) = some q → s.refs q + own q ≤ 65536) →
      ∃ l', MemInv avail held own l' s')
  := by
  cases hq : refOf (s.pteAt e va) with
  | none =>
      use s
      constructor
      · rw [pageRemove, Prog.bind_of_eq (pageLookup_eq_none h hpg hva hq)]
        rfl
      · constructor
        · rw [Kernel.cleared, ptes_pteAddr, if_pos hq]
          apply Edit.refl
        · constructor
          · intro _ _ _
            rfl
          · intro _
            use l
  | some q =>
      obtain ⟨pt, hpt, -, heq⟩ := pageLookup_eq_some h hpg hva hq
      have hlink : (s.pages q).ppLink = none := by
        have hx : s.slotRef (.page e ⟨PDX va, PDX_lt_of_lt_UTOP hva⟩ ⟨PTX va, PTX_lt va⟩) = some q :=
          hq
        apply h.unlinked q (Kernel.mem_avail h hx) (h.mapped_notMem hx)
      use (s.decref q).setEntry pt (PTX va) 0
      constructor
      · rw [pageRemove, Prog.bind_of_eq heq]
        simp only
        rw [Prog.bind_of_eq (pageDecref_eq hlink)]
        rfl
      · rw [decref_setEntry]
        constructor
        · rw [Kernel.cleared, ptes_pteAddr, if_neg (by rw [hq]; simp)]
          apply (Edit.setPteAt h hva hpt 0).decref
        · constructor
          · intro e' d' hd'
            rw [(decref_sameTables q).pde e' hd']
            apply Kernel.setPte_pde h (d := ⟨PDX va, PDX_lt_of_lt_UTOP hva⟩) hpt
              ⟨PTX va, PTX_lt va⟩ 0 e' hd'
          · intro hfits
            apply h.clearPte hva hpt hq (hfits q rfl)

end Lookup

/-! ### Inserting -/

section Insert

variable {e : Fin NENV} {pg pp : Nat} {va : Word}

/-- Filling an empty entry of a page table and counting the reference keeps the invariant. -/
theorem MemInv.fillPte (h : MemInv avail held own l s) {d : Fin NUPDE} {pt : Nat}
    (hpt : refOf (s.pde e d) = some pt) (t : Fin NPTENTRIES) (hnone : refOf (s.pte e d t) = none)
    (hs : s.Mappable avail l pp) {w : Word} (hw : refOf w = some pp) :
  MemInv avail (held.erase pp) own l ((s.setEntry pt t w).incref pp)
  := by
  have h' := h.incref hs.1 hs.2.1
  have hpt' : refOf ((s.incref pp).pde e d) = some pt := hpt
  have href := Kernel.setPte_slotRef h' hpt' t w
  rw [hw] at href
  have hnew : MemInv avail (held.erase pp) _ l ((s.incref pp).setEntry pt t w) :=
    h'.attach href rfl rfl rfl rfl hnone (by simp) hs.2.2 (by simp [Slot.Owns])
  simp only [Function.update_self, Nat.add_sub_cancel, Function.update_idem] at hnew
  rw [Function.update_eq_self] at hnew
  apply hnew

/-- Filling an entry of a page table in place of another page keeps the invariant. -/
theorem MemInv.replacePte (h : MemInv avail held own l s) (hva : va.toNat < UTOP) {pt q : Nat}
    (hpt : refOf (s.pde e (PDX va)) = some pt) (hq : refOf (s.pteAt e va) = some q)
    (hs : s.Mappable avail l pp) (hfits : s.refs q + own q ≤ 65535) {w : Word}
    (hw : refOf w = some pp) :
  ∃ l', MemInv avail (held.erase pp) own l' (((s.incref pp).setEntry pt (PTX va) w).decref q)
  := by
  have h1 := h.incref hs.1 hs.2.1
  have hpt1 : refOf ((s.incref pp).pde e (PDX va)) = some pt := hpt
  have hq1 : refOf ((s.incref pp).pteAt e va) = some q := hq
  have hrefs1 : (s.incref pp).refs q = s.refs q := refs_sameTables (incref_sameTables pp) q
  have hown1 : Function.update own pp (own pp + 1) q ≤ own q + 1 := by
    by_cases hqp : q = pp
    · subst hqp
      rw [Function.update_self]
    · rw [Function.update_of_ne hqp]
      omega
  obtain ⟨l', h2⟩ := h1.clearPte hva hpt1 hq1 (by omega)
  use l'
  have hclear := Kernel.setPte_slotRef h1 (d := ⟨PDX va, PDX_lt_of_lt_UTOP hva⟩) hpt1
    ⟨PTX va, PTX_lt va⟩ 0
  rw [refOf_zero, (incref_sameTables pp).slotRef] at hclear
  have href2 := hclear
  rw [← (decref_sameTables q).slotRef] at href2
  have hpt2 : refOf ((((s.incref pp).setEntry pt (PTX va) 0).decref q).pde e (PDX va)) = some pt := by
    have := congrFun href2 (.table e ⟨PDX va, PDX_lt_of_lt_UTOP hva⟩)
    rw [Function.update_of_ne (by simp)] at this
    apply this.trans hpt
  have href3 := Kernel.setPte_slotRef h2 (d := ⟨PDX va, PDX_lt_of_lt_UTOP hva⟩) hpt2
    ⟨PTX va, PTX_lt va⟩ w
  rw [hw] at href3
  have h3 := h2.attach href3 rfl rfl rfl rfl (by rw [href2, Function.update_self]) (by simp)
    (by
      rw [href2]
      intro y hy
      by_cases hyx : y = .page e ⟨PDX va, PDX_lt_of_lt_UTOP hva⟩ ⟨PTX va, PTX_lt va⟩
      · rw [hyx]
        simp [Slot.Owns]
      · rw [Function.update_of_ne hyx] at hy
        apply hs.2.2 y hy)
    (by simp [Slot.Owns])
  simp only [Function.update_self, Nat.add_sub_cancel, Function.update_idem] at h3
  rw [Function.update_eq_self, decref_setEntry] at h3
  simp only [Kernel.setEntry, Bytes.write32_write32] at h3 ⊢
  apply h3

/-- Inserting a page in the place of the page `q` gives up a reference to `q`. -/
theorem pageInsert_replaces (h : MemInv avail held own l s) (hpg : s.pgdir e = some pg)
    (hva : va.toNat < UTOP) (hs : s.Mappable avail l pp) {pt q : Nat}
    (hpt : refOf (s.pde e (PDX va)) = some pt) (hq : refOf (s.pteAt e va) = some q) (perm : Word) :
  pageInsert pg pp va perm s = .ok (0,
    ((s.incref pp).setEntry pt (PTX va) (page2pa pp ||| perm ||| PTE_P)).decref q)
  := by
  have hpte : s.pteAt e va = s.entry pt (PTX va) := by
    rw [Kernel.pteAt, Kernel.pte, hpt]
  have h1 := h.incref hs.1 hs.2.1
  have hpg1 : (s.incref pp).pgdir e = some pg := hpg
  obtain ⟨pt', hpt1, -, hlookup⟩ := pageLookup_eq_some h1 hpg1 hva hq
  have hptt : pt' = pt := by
    apply Option.some.inj
    apply hpt1.symm.trans hpt
  rw [hptt] at hlookup
  have hx : s.slotRef (.page e ⟨PDX va, PDX_lt_of_lt_UTOP hva⟩ ⟨PTX va, PTX_lt va⟩) = some q := hq
  have hlink : ((s.incref pp).pages q).ppLink = none := by
    apply h1.unlinked q (Kernel.mem_avail h hx) (h.mapped_notMem hx)
  have hfinal : (((s.incref pp).decref q).setEntry pt (PTX va) 0).setEntry pt (PTX va)
        (page2pa pp ||| perm ||| PTE_P)
      = ((s.incref pp).setEntry pt (PTX va) (page2pa pp ||| perm ||| PTE_P)).decref q := by
    rw [← decref_setEntry]
    simp only [Kernel.setEntry, Bytes.write32_write32]
  rw [← hfinal, pageInsert, Prog.bind_of_eq (pgdirWalk_ok h hpg hva true hpt)]
  simp only
  rw [Prog.get_bind, if_neg (by rw [← hpte]; apply (refOf_eq_some.mp hq).1),
    Prog.bind_of_eq (pageIncref_eq pp), pageRemove]
  rw [Prog.bind_of_eq (show _ = Except.ok ((), _) by
    rw [Prog.bind_of_eq hlookup]
    simp only
    rw [Prog.bind_of_eq (pageDecref_eq hlink)]
    rfl)]
  rfl

/-- Inserting a mappable page sets the entry to the page and keeps the invariant.
It fails, without an effect, only if a page table is needed and no page is free. -/
theorem pageInsert_ok (h : MemInv avail held own l s) (hpg : s.pgdir e = some pg)
    (hva : va.toNat < UTOP) (hs : s.Mappable avail l pp) (perm : Word) :
  (pageInsert pg pp va perm s = .ok (-E_NO_MEM, s) ∧ l = [] ∧ refOf (s.pde e (PDX va)) = none) ∨
  (∃ s', pageInsert pg pp va perm s = .ok (0, s')
    ∧ Edit held s s' (Function.update s.ptes (pteAddr e va hva) (page2pa pp ||| perm ||| PTE_P))
    ∧ (perm.toNat < 4096 → s.Fits avail own → ∃ l', MemInv avail (held.erase pp) own l' s'))
  := by
  have hn := h.npages_le
  have hlt := h.avail_lt pp hs.1
  cases hpt : refOf (s.pde e (PDX va)) with
  | none =>
      have hpt' : refOf (s.entry pg (PDX va)) = none := by
        rw [Kernel.pde, hpg] at hpt
        apply hpt
      cases l with
      | nil =>
          left
          constructor
          · rw [pageInsert, Prog.bind_of_eq (pgdirWalk_create_eq_none h hpt')]
            rfl
          · constructor
            · rfl
            · rfl
      | cons p l =>
          right
          have h1 := h.withTable hpg (d := ⟨PDX va, PDX_lt_of_lt_UTOP hva⟩) hpt
          have hedit := Edit.withTable h hpg (d := ⟨PDX va, PDX_lt_of_lt_UTOP hva⟩) hpt
          obtain ⟨-, hpde, hptes⟩ :=
            withTable_slotRef h hpg (d := ⟨PDX va, PDX_lt_of_lt_UTOP hva⟩) hpt
          have hp := h.refs_free List.mem_cons_self
          have hpl := h.avail_lt p hp.1
          have hpt1 : refOf ((s.withTable pg (PDX va) p).pde e (PDX va)) = some p := by
            rw [hpde e (PDX va) (PDX_lt va), if_pos ⟨rfl, rfl⟩, refOf_tableEntry (by omega)]
          have hpte : (s.withTable pg (PDX va) p).pteAt e va = 0 := by
            have := congrFun hptes (pteAddr e va hva)
            rw [ptes_pteAddr, ptes_pteAddr] at this
            rw [this, Kernel.pteAt, Kernel.pte, hpt]
          have hentry : (s.withTable pg (PDX va) p).entry p (PTX va) = 0 := by
            rw [Kernel.pteAt, Kernel.pte, hpt1] at hpte
            apply hpte
          use ((s.withTable pg (PDX va) p).setEntry p (PTX va)
            (page2pa pp ||| perm ||| PTE_P)).incref pp
          constructor
          · rw [pageInsert, Prog.bind_of_eq (pgdirWalk_create_eq_some h hpt')]
            simp only
            rw [Prog.get_bind, if_pos (by rw [hentry]; rfl), Prog.modify_bind,
              Prog.bind_of_eq (pageIncref_eq pp)]
            rfl
          · constructor
            · rw [← hptes]
              apply hedit.trans
              apply (Edit.setPteAt h1 hva hpt1 _).incref
            · intro hperm _
              use l
              apply h1.fillPte (d := ⟨PDX va, PDX_lt_of_lt_UTOP hva⟩) hpt1 ⟨PTX va, PTX_lt va⟩
              · rw [show (s.withTable pg (PDX va) p).pte e (PDX va) (PTX va) = 0 from hpte,
                  refOf_zero]
              · apply mappable_withTable h hpg (d := ⟨PDX va, PDX_lt_of_lt_UTOP hva⟩) hpt hs
              · apply refOf_mk (by omega) hperm
  | some pt =>
      right
      have hwalk := pgdirWalk_ok h hpg hva true hpt
      have hpte : s.pteAt e va = s.entry pt (PTX va) := by
        rw [Kernel.pteAt, Kernel.pte, hpt]
      cases hq : refOf (s.pteAt e va) with
      | none =>
          use (s.setEntry pt (PTX va) (page2pa pp ||| perm ||| PTE_P)).incref pp
          constructor
          · rw [pageInsert, Prog.bind_of_eq hwalk]
            simp only
            rw [Prog.get_bind, if_pos (by rw [← hpte]; apply refOf_eq_none.mp hq),
              Prog.modify_bind, Prog.bind_of_eq (pageIncref_eq pp)]
            rfl
          · constructor
            · apply (Edit.setPteAt h hva hpt _).incref
            · intro hperm _
              use l
              apply h.fillPte (d := ⟨PDX va, PDX_lt_of_lt_UTOP hva⟩) hpt ⟨PTX va, PTX_lt va⟩ hq hs
              apply refOf_mk (by omega) hperm
      | some q =>
          use ((s.incref pp).setEntry pt (PTX va) (page2pa pp ||| perm ||| PTE_P)).decref q
          constructor
          · exact pageInsert_replaces h hpg hva hs hpt hq perm
          · constructor
            · apply ((Edit.setPteAt h hva hpt _).incref pp).decref
            · intro hperm hfits
              apply h.replacePte hva hpt hq hs
              · apply hfits q (Kernel.mem_avail h (x := .page e
                  ⟨PDX va, PDX_lt_of_lt_UTOP hva⟩ ⟨PTX va, PTX_lt va⟩) hq)
              · apply refOf_mk (by omega) hperm

end Insert

end Jos
