import Jos.Root.PageCalls

/-!
# Allocating regions

`region_alloc` takes pages off the free list and maps them with all permissions, one address
after the other, so that each page but the last one of those mapped at a place is given back at
once.  What `page_insert` returns is not looked at.  It fails only when the free list is empty, and
then the next address finds that out.
-/

namespace Jos

namespace Root

open Bytes Prog

variable {avail held : Finset Nat} {l l' : List Nat} {s s' s'' : Kernel}

/-! ### Taking a page as it is -/

/-- The state after the free page `p` is taken off the free list. -/
def claimed (s : Kernel) (p : Nat) : Kernel :=
  { s with pageFreeList := (s.pages p).ppLink }.setPage p { s.pages p with ppLink := none }

theorem pageAlloc_claimed {p : Nat} (h : s.pageFreeList = some p) :
  pageAlloc 0 s = .ok (some p, claimed s p)
  := by
  rw [pageAlloc, get_bind]
  simp only [h]
  rw [set_bind, if_neg (by simp)]
  rfl

theorem pageAlloc_zero_none (h : s.pageFreeList = none) :
  pageAlloc 0 s = .ok (none, s)
  := by
  rw [pageAlloc, get_bind]
  simp only [h]
  rfl

theorem claimed_sameTables (s : Kernel) (p : Nat) :
  s.SameTables (claimed s p)
  := Kernel.SameTables.of_mem rfl rfl rfl

theorem claimed_memInv {own : Nat → Nat} {p : Nat} (h : MemInv avail held own (p :: l) s) :
  MemInv avail (insert p held) own l (claimed s p)
  := by
  have ht := h.taken_sameTables
  have hsame : (s.taken p).SameTables (claimed s p) := by
    constructor
    case envs => rfl
    case kernPgdir => rfl
    case entry =>
      intro r hr i hi
      have hr' : s.IsTable r := by
        obtain rfl | ⟨x, ho, hx⟩ := hr
        · exact Or.inl rfl
        · rw [ht.slotRef] at hx
          exact Or.inr ⟨x, ho, hx⟩
      exact (ht.entry r hr' i hi).symm
  exact h.taken.same_tables hsame rfl rfl rfl

theorem claimed_edit (s : Kernel) (p : Nat) :
  Edit held s (claimed s p) s.ptes
  := .of_lab (.of_mem rfl rfl)

/-! ### What a region allocation does for an address -/

/-- The permissions of what a program is loaded to. -/
def regionPerm : Word :=
  PTE_W ||| PTE_U ||| PTE_P

/-- The entry made for the page `p`. -/
def regionPte (p : Nat) : Word :=
  page2pa p ||| regionPerm ||| PTE_P

theorem refOf_regionPte {p : Nat} (hp : p < 2 ^ 20) :
  refOf (regionPte p) = some p
  := refOf_mk hp (by decide)

/-- From `s` to `s'` the free page `p` was mapped at `va` in the environment `e`. -/
structure Inserted (avail : Finset Nat) (e : Fin NENV) (va : Word) (hva : va.toNat < UTOP) (p : Nat)
    (s s' : Kernel) : Prop where
  wf : Wf avail ∅ s'
  free : s.OnFreeList p
  lt : p < 2 ^ 20
  edit : Edit ∅ s s' (Function.update s.ptes (pteAddr e va hva) (regionPte p))
  tables : TablesKept e (PDX va) s s'
  frame : ∀ q i, i < 1024 → s'.entry q i ≠ s.entry q i → s.slotRef (.dir e) = some q
    ∨ s.slotRef (.table e ⟨PDX va, PDX_lt_of_lt_UTOP hva⟩) = some q ∨ s.OnFreeList q

/-- The slot of a page table entry. -/
def pageSlot (a : PteAddr) : Slot :=
  .page a.1 a.2.1 a.2.2

theorem slotRef_pageSlot (s : Kernel) (a : PteAddr) :
  s.slotRef (pageSlot a) = refOf (s.ptes a)
  := rfl

theorem pageSlot_inj {a a' : PteAddr} (h : pageSlot a = pageSlot a') :
  a = a'
  := by
  obtain ⟨h1, h2, h3⟩ := Slot.page.inj h
  exact Prod.ext h1 (Prod.ext h2 h3)

/-- A page on the free list of a well-formed kernel is not referred to. -/
theorem Wf.not_ref_of_free (h : Wf avail held s) {p : Nat} (hp : s.OnFreeList p) (x : Slot) :
  s.slotRef x ≠ some p
  := by
  obtain ⟨l, hl⟩ := h.mem
  obtain ⟨l', hl', hmem⟩ := hp
  rw [hl'.unique hl.chain] at hmem
  have h0 := (hl.refs_free hmem).2.2.1
  rw [Kernel.refs, refCount.eq_zero_iff] at h0
  exact h0 x (mem_slots x)

/-- The free pages are those that nothing refers to and that are not held. -/
theorem Wf.free_iff (h : Wf avail held s) {p : Nat} :
  s.OnFreeList p ↔ p ∈ avail ∧ p ∉ held ∧ ∀ x, s.slotRef x ≠ some p
  := by
  obtain ⟨l, hl⟩ := h.mem
  have hlist : s.OnFreeList p ↔ p ∈ l := by
    constructor
    · rintro ⟨l', hl', hmem⟩
      rw [← hl'.unique hl.chain]
      exact hmem
    · exact fun hmem => ⟨l, hl.chain, hmem⟩
  have hzero : (s.store l held (fun _ => 0)).total slots p = 0 ↔ ∀ x, s.slotRef x ≠ some p := by
    have htotal : (s.store l held (fun _ => 0)).total slots p = refCount slots s.slotRef p := rfl
    rw [htotal, refCount.eq_zero_iff]
    constructor
    · exact fun h x => h x (mem_slots x)
    · exact fun h x _ => h x
  rw [hlist, ← hzero]
  exact hl.balanced.mem_free p

namespace Inserted

variable {e : Fin NENV} {va : Word} {hva : va.toNat < UTOP} {p : Nat}
  (h : Inserted avail e va hva p s s')
include h

/-- What a slot refers to when the page is mapped. -/
theorem slot {x : Slot} {q : Nat} (hx : s'.slotRef x = some q) :
  (x = pageSlot (pteAddr e va hva) ∧ q = p)
    ∨ (x = .table e ⟨PDX va, PDX_lt_of_lt_UTOP hva⟩ ∧ s.slotRef x = none)
    ∨ (x ≠ pageSlot (pteAddr e va hva) ∧ s.slotRef x = some q)
  := by
  cases x with
  | dir e' =>
      right; right
      constructor
      · rw [pageSlot]
        simp
      · rw [← hx]
        exact (h.edit.quiet.pgdir e').symm
  | table e' d' =>
      have hd' := d'.isLt
      simp only [NUPDE] at hd'
      by_cases hself : e' = e ∧ d'.val = PDX va
      · obtain ⟨rfl, hd⟩ := hself
        obtain rfl : d' = ⟨PDX va, PDX_lt_of_lt_UTOP hva⟩ := Fin.ext hd
        cases hold : s.slotRef (.table e' ⟨PDX va, PDX_lt_of_lt_UTOP hva⟩) with
        | none => exact Or.inr (Or.inl ⟨rfl, rfl⟩)
        | some q' =>
            right; right
            have hkept := h.tables.table q' hold
            rw [Kernel.slotRef, hkept] at hx
            rw [← hx]
            constructor
            · rw [pageSlot]
              simp
            · rfl
      · right; right
        constructor
        · rw [pageSlot]
          simp
        · rw [← hx, Kernel.slotRef, Kernel.slotRef, h.tables.others e' d' (by omega)]
          by_cases he : e' = e
          · exact Or.inr (fun hd => hself ⟨he, hd⟩)
          · exact Or.inl he
  | page e' d' t' =>
      have hx' : refOf (s'.ptes (e', d', t')) = some q := hx
      rw [h.edit.ptes] at hx'
      by_cases ha : (e', d', t') = pteAddr e va hva
      · left
        rw [ha, Function.update_self, refOf_regionPte h.lt] at hx'
        obtain rfl := Option.some.inj hx'
        rw [← ha]
        exact ⟨rfl, rfl⟩
      · right; right
        rw [Function.update_of_ne ha] at hx'
        exact ⟨fun heq => ha (pageSlot_inj heq), hx'⟩
  | kern d =>
      right; right
      constructor
      · rw [pageSlot]
        simp
      · rw [← hx, Kernel.slotRef, Kernel.slotRef, h.edit.quiet.kernPgdir, h.edit.kern d d.isLt]

/-- Other slots keep what they refer to. -/
theorem slot_kept {x : Slot} {q : Nat} (hx : s.slotRef x = some q)
    (hne : x ≠ pageSlot (pteAddr e va hva)) :
  s'.slotRef x = some q
  := by
  cases x with
  | dir e' =>
      rw [← hx]
      exact h.edit.quiet.pgdir e'
  | table e' d' =>
      have hd' := d'.isLt
      simp only [NUPDE] at hd'
      by_cases hself : e' = e ∧ d'.val = PDX va
      · obtain ⟨rfl, hd⟩ := hself
        obtain rfl : d' = ⟨PDX va, PDX_lt_of_lt_UTOP hva⟩ := Fin.ext hd
        exact h.tables.table q hx
      · rw [← hx, Kernel.slotRef, Kernel.slotRef, h.tables.others e' d' (by omega)]
        by_cases he : e' = e
        · exact Or.inr (fun hd => hself ⟨he, hd⟩)
        · exact Or.inl he
  | page e' d' t' =>
      have ha : (e', d', t') ≠ pteAddr e va hva := by
        intro ha
        apply hne
        rw [← ha]
        rfl
      have hpte := congrFun h.edit.ptes (e', d', t')
      rw [Function.update_of_ne ha] at hpte
      rw [← hx]
      exact congrArg refOf hpte
  | kern d =>
      rw [← hx, Kernel.slotRef, Kernel.slotRef, h.edit.quiet.kernPgdir, h.edit.kern d d.isLt]

/-- The page is mapped. -/
theorem slot_self :
  s'.slotRef (pageSlot (pteAddr e va hva)) = some p
  := by
  rw [slotRef_pageSlot, h.edit.ptes, Function.update_self]
  exact refOf_regionPte h.lt

/-- No page has got more references but the one that is mapped, which has one. -/
theorem fits (hs : Wf avail ∅ s) (hfits : Fits avail s) :
  Fits avail s'
  := by
  intro q hq
  obtain ⟨l', hl'⟩ := h.wf.mem
  rw [Nat.add_zero, Kernel.refs]
  by_cases hown : ∃ x, x.Owns ∧ s'.slotRef x = some q
  · -- a directory or a page table has a single reference
    obtain ⟨x, ho, hx⟩ := hown
    rw [refCount.eq_one (mem_slots x) hx (fun y _ hy => hl'.balanced.owned x y q ho hx hy)]
    decide
  · by_cases hqp : q = p
    · have hone : ∀ y ∈ slots, s'.slotRef y = some q → y = pageSlot (pteAddr e va hva) := by
        intro y _ hy
        obtain ⟨rfl, -⟩ | ⟨rfl, -⟩ | ⟨-, hold⟩ := h.slot hy
        · rfl
        · exact (hown ⟨.table e _, trivial, hy⟩).elim
        · rw [hqp] at hold
          exact (hs.not_ref_of_free h.free y hold).elim
      rw [refCount.eq_one (mem_slots _) (hqp ▸ h.slot_self) hone]
      decide
    · have hle : s'.refs q ≤ s.refs q := by
        apply refCount.mono
        intro y _ hy
        obtain ⟨-, hp⟩ | ⟨rfl, -⟩ | ⟨-, hold⟩ := h.slot hy
        · exact (hqp hp).elim
        · exact (hown ⟨.table e _, trivial, hy⟩).elim
        · exact hold
      exact Nat.le_trans hle (hfits q hq)

/-- A free page stays free, unless it is mapped or becomes a page table. -/
theorem free_kept (hs : Wf avail ∅ s) {q : Nat} (hq : s.OnFreeList q) (hqp : q ≠ p)
    (htable : s.slotRef (.table e ⟨PDX va, PDX_lt_of_lt_UTOP hva⟩) = none →
      s'.slotRef (.table e ⟨PDX va, PDX_lt_of_lt_UTOP hva⟩) ≠ some q) :
  s'.OnFreeList q
  := by
  obtain ⟨havail, -, -⟩ := hs.free_iff.mp hq
  apply h.wf.free_iff.mpr
  refine ⟨havail, by simp, ?_⟩
  intro x hx
  obtain ⟨-, hp⟩ | ⟨rfl, hnone⟩ | ⟨-, hold⟩ := h.slot hx
  · exact hqp hp
  · exact htable hnone hx
  · exact hs.not_ref_of_free hq x hold

end Inserted

/-! ### How many pages are free -/

/-- At least `n` pages are free. -/
def HasFree (n : Nat) (s : Kernel) : Prop :=
  ∃ l, Chain (fun p => (s.pages p).ppLink) s.pageFreeList l ∧ n ≤ l.length

/-- Free pages are as many as they are different. -/
theorem hasFree_iff {own : Nat → Nat} (h : MemInv avail held own l s) (n : Nat) :
  HasFree n s ↔ n ≤ l.toFinset.card
  := by
  have hnodup : l.Nodup := h.balanced.nodup
  rw [List.toFinset_card_of_nodup hnodup]
  constructor
  · rintro ⟨l', hl', hn⟩
    rw [hl'.unique h.chain] at hn
    exact hn
  · exact fun hn => ⟨l, h.chain, hn⟩

theorem mem_free_iff {own : Nat → Nat} (h : MemInv avail held own l s) {p : Nat} :
  p ∈ l.toFinset ↔ s.OnFreeList p
  := by
  rw [List.mem_toFinset]
  constructor
  · exact fun hmem => ⟨l, h.chain, hmem⟩
  · rintro ⟨l', hl', hmem⟩
    rw [← hl'.unique h.chain]
    exact hmem

namespace Inserted

variable {e : Fin NENV} {va : Word} {hva : va.toNat < UTOP} {p n : Nat}
  (h : Inserted avail e va hva p s s') (hs : Wf avail ∅ s)
include h hs

/-- Mapping a page takes it, and another one for a page table, at most. -/
theorem hasFree (hn : HasFree (n + 2) s) :
  HasFree n s'
  := by
  obtain ⟨l, hl⟩ := hs.mem
  obtain ⟨l', hl'⟩ := h.wf.mem
  rw [hasFree_iff hl] at hn
  rw [hasFree_iff hl']
  have hsub : l.toFinset ⊆ insert p (insert
      ((s'.slotRef (.table e ⟨PDX va, PDX_lt_of_lt_UTOP hva⟩)).getD p) l'.toFinset) := by
    intro q hq
    rw [Finset.mem_insert, Finset.mem_insert]
    by_cases hqp : q = p
    · exact Or.inl hqp
    · by_cases hqt : s'.slotRef (.table e ⟨PDX va, PDX_lt_of_lt_UTOP hva⟩) = some q
      · rw [hqt]
        exact Or.inr (Or.inl rfl)
      · right; right
        apply (mem_free_iff hl').mpr
        exact h.free_kept hs ((mem_free_iff hl).mp hq) hqp (fun _ => hqt)
  have hcard := Finset.card_le_card hsub
  have h1 := Finset.card_insert_le p (insert
    ((s'.slotRef (.table e ⟨PDX va, PDX_lt_of_lt_UTOP hva⟩)).getD p) l'.toFinset)
  have h2 := Finset.card_insert_le
    ((s'.slotRef (.table e ⟨PDX va, PDX_lt_of_lt_UTOP hva⟩)).getD p) l'.toFinset
  omega

/-- Mapping a page in the place of one that is mapped only there gives that one back. -/
theorem hasFree_again {p1 : Nat} (hold : s.slotRef (pageSlot (pteAddr e va hva)) = some p1)
    (hsole : ∀ x, s.slotRef x = some p1 → x = pageSlot (pteAddr e va hva))
    (hn : HasFree n s) :
  HasFree n s'
  := by
  obtain ⟨l, hl⟩ := hs.mem
  obtain ⟨l', hl'⟩ := h.wf.mem
  rw [hasFree_iff hl] at hn
  rw [hasFree_iff hl']
  have htable : s.slotRef (.table e ⟨PDX va, PDX_lt_of_lt_UTOP hva⟩) ≠ none := by
    intro hnone
    have hnone' : refOf (s.pde e (PDX va)) = none := hnone
    rw [slotRef_pageSlot, ptes_pteAddr, Kernel.pteAt, Kernel.pte, hnone', refOf_zero] at hold
    cases hold
  have hne : p1 ≠ p := by
    rintro rfl
    exact hs.not_ref_of_free h.free _ hold
  have hnot : p1 ∉ l.toFinset := by
    intro hmem
    exact hs.not_ref_of_free ((mem_free_iff hl).mp hmem) _ hold
  have hfree1 : s'.OnFreeList p1 := by
    apply h.wf.free_iff.mpr
    refine ⟨Kernel.mem_avail hl hold, by simp, ?_⟩
    intro x hx
    obtain ⟨-, hp⟩ | ⟨rfl, hnone⟩ | ⟨hother, hx'⟩ := h.slot hx
    · exact hne hp
    · exact htable hnone
    · exact hother (hsole x hx')
  have hsub : insert p1 (l.toFinset.erase p) ⊆ l'.toFinset := by
    intro q hq
    apply (mem_free_iff hl').mpr
    obtain rfl | hq := Finset.mem_insert.mp hq
    · exact hfree1
    · obtain ⟨hqp, hq⟩ := Finset.mem_erase.mp hq
      exact h.free_kept hs ((mem_free_iff hl).mp hq) hqp (fun hnone => (htable hnone).elim)
  have hcard := Finset.card_le_card hsub
  rw [Finset.card_insert_of_notMem (by
    intro hmem
    exact hnot (Finset.mem_of_mem_erase hmem)),
    Finset.card_erase_of_mem ((mem_free_iff hl).mpr h.free)] at hcard
  omega

/-- The page is mapped nowhere else. -/
theorem sole (x : Slot) (hx : s'.slotRef x = some p) :
  x = pageSlot (pteAddr e va hva)
  := by
  obtain ⟨rfl, -⟩ | ⟨rfl, -⟩ | ⟨-, hold⟩ := h.slot hx
  · rfl
  · obtain ⟨l', hl'⟩ := h.wf.mem
    exact (hl'.balanced.owned (.table e _) (pageSlot (pteAddr e va hva)) p trivial hx
      h.slot_self).symm
  · exact (hs.not_ref_of_free h.free x hold).elim

end Inserted

/-! ### One address -/

/-- The first free page is mapped. -/
theorem regionAllocAt_eq {pg p : Nat} {va r : Word} (hp : s.pageFreeList = some p)
    (heq : pageInsert pg p va regionPerm (claimed s p) = .ok (r, s')) :
  regionAllocAt pg va s = .ok ((), s')
  := by
  rw [regionAllocAt, bind_of_eq (pageAlloc_claimed hp)]
  simp only
  rw [bind_of_eq (show pageInsert pg p va (PTE_W ||| PTE_U ||| PTE_P) (claimed s p)
    = .ok (r, s') from heq)]
  rfl

/-- What is done for one address: it panics if no page is free, it fails to map the last free page,
or it maps a page. -/
theorem regionAllocAt_cases {e : Fin NENV} {pg : Nat} {va : Word} (h : Wf avail ∅ s)
    (hfits : Fits avail s) (hpg : s.pgdir e = some pg) (hva : va.toNat < UTOP) :
  (s.pageFreeList = none
    ∧ regionAllocAt pg va s = .error (.panic "Error happened in region alloc")) ∨
  (∃ s', regionAllocAt pg va s = .ok ((), s') ∧ s'.pageFreeList = none ∧ ¬ HasFree 2 s
    ∧ s.slotRef (.table e ⟨PDX va, PDX_lt_of_lt_UTOP hva⟩) = none) ∨
  (∃ p s', regionAllocAt pg va s = .ok ((), s') ∧ Inserted avail e va hva p s s')
  := by
  obtain ⟨l, hl⟩ := h.mem
  cases l with
  | nil =>
      left
      have hnone := hl.pageFreeList_eq_none.mpr rfl
      use hnone
      rw [regionAllocAt, bind_of_eq (pageAlloc_zero_none hnone)]
      rfl
  | cons p l =>
      right
      have hfree : s.OnFreeList p := ⟨_, hl.chain, List.mem_cons_self⟩
      have hp := hl.refs_free List.mem_cons_self
      have hlt := hl.avail_lt p hp.1
      have hnp := hl.npages_le
      have hl1 : MemInv avail {p} (fun _ => 0) l (claimed s p) := claimed_memInv hl
      have ht := claimed_sameTables s p
      have hwf1 : Wf avail {p} (claimed s p) := h.edit (claimed_edit s p) h.user.page ⟨l, hl1⟩
      have hpg1 : (claimed s p).pgdir e = some pg := hpg
      have hpp : (claimed s p).Shareable {p} p := Or.inl (Finset.mem_singleton_self p)
      have hperm : regionPerm.toNat < 4096 := by decide
      have huser : regionPerm &&& PTE_U = PTE_U := by decide
      have hfits1 : (claimed s p).Fits avail (fun _ => 0) := fits_sameTables ht hfits
      obtain ⟨heq, hnil, hnone⟩ | ⟨s', l', heq, hedit, hl', htables⟩ :=
        pageInsert_ok hl1 hpg1 hva (hl1.shareable hpp) hperm hfits1
      · left
        use claimed s p, regionAllocAt_eq hl.chain.1 heq, hl1.pageFreeList_eq_none.mpr hnil
        constructor
        · rintro ⟨l2, hl2, hlen⟩
          rw [hl2.unique hl.chain, hnil] at hlen
          simp at hlen
        · exact hnone
      · right
        rw [Finset.erase_singleton] at hl'
        have hptes : (claimed s p).ptes = s.ptes := rfl
        have hedit' : Edit ∅ s s' (Function.update s.ptes (pteAddr e va hva) (regionPte p)) :=
          (claimed_edit s p).trans (hedit.mono (Finset.empty_subset _))
        have hflags := pageFlags_update h.user.page (a := pteAddr e va hva)
          (pageFlags_mk huser p)
        use p, s', regionAllocAt_eq hl.chain.1 heq
        constructor
        case wf => exact h.edit hedit' hflags ⟨l', hl'⟩
        case free => exact hfree
        case lt => omega
        case edit => exact hedit'
        case tables => exact (TablesKept.sameTables e (PDX_lt va) ht).trans htables
        case frame =>
          intro q i hi hchanged
          by_contra hnot
          push Not at hnot
          obtain ⟨hdir, htable, hq⟩ := hnot
          apply hchanged
          apply pageInsert_frame hl1 hpg1 hva (hl1.shareable hpp) heq hi
          · rintro rfl
            exact hdir hpg
          · exact htable
          · intro hhead
            cases l with
            | nil =>
                rw [hl1.pageFreeList_eq_none.mpr rfl] at hhead
                cases hhead
            | cons p' l =>
                obtain rfl := Option.some.inj (hhead.symm.trans hl1.chain.1)
                exact hq ⟨_, hl.chain, List.mem_cons_of_mem _ List.mem_cons_self⟩

end Root

end Jos
