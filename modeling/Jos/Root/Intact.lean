import Jos.Root.Storing

/-!
# Pages that loading leaves intact

A page that is mapped at one place only can be reached at that place only.  While pages are mapped
elsewhere in the environment, and bytes are written elsewhere, the page stays mapped where it is,
nothing else refers to it, and its bytes stay as they are.
-/

namespace Jos

namespace Root

open Bytes Prog

variable {avail held : Finset Nat} {l : List Nat} {e : Fin NENV} {pg q : Nat} {a : PteAddr}
  {s s' s'' : Kernel}

/-- The page `q` is mapped by the page table entry at `a`, and nothing else refers to it. -/
structure Sole (s : Kernel) (a : PteAddr) (q : Nat) : Prop where
  mapped : refOf (s.ptes a) = some q
  alone : ∀ x, s.slotRef x = some q → x = pageSlot a

/-- From `s` to `s'` the page `q`, which is mapped at `a` only, was left as it is. -/
structure Intact (a : PteAddr) (q : Nat) (s s' : Kernel) : Prop where
  pte : s'.ptes a = s.ptes a
  sole : Sole s' a q
  bytes : ∀ o < PGSIZE, s'.mem (q * PGSIZE + o) = s.mem (q * PGSIZE + o)

theorem Intact.refl (h : Sole s a q) :
  Intact a q s s
  := ⟨rfl, h, fun _ _ => rfl⟩

theorem Intact.trans (h : Intact a q s s') (h' : Intact a q s' s'') :
  Intact a q s s''
  := by
  constructor
  case pte => rw [h'.pte, h.pte]
  case sole => exact h'.sole
  case bytes =>
    intro o ho
    rw [h'.bytes o ho, h.bytes o ho]

/-- What only a page table entry refers to may be mapped elsewhere too. -/
theorem Sole.shareable (h : Sole s a q) :
  s.Shareable held q
  := Or.inr ⟨pageSlot a, id, h.mapped⟩

/-- A page that is mapped elsewhere is another one. -/
theorem Sole.ne (h : Sole s a q) {a' : PteAddr} {r : Nat} (hr : refOf (s.ptes a') = some r)
    (hne : a' ≠ a) :
  r ≠ q
  := by
  rintro rfl
  exact hne (pageSlot_inj (h.alone (pageSlot a') hr))

/-- The paging structures are as before, and so is the page. -/
theorem Sole.intact (h : Sole s a q) (ht : s.SameTables s')
    (hbytes : ∀ o < PGSIZE, s'.mem (q * PGSIZE + o) = s.mem (q * PGSIZE + o)) :
  Intact a q s s'
  := by
  have hpte : s'.ptes a = s.ptes a := ht.pte a.1 a.2.1 a.2.2.isLt
  constructor
  case pte => exact hpte
  case sole =>
    constructor
    case mapped => rw [hpte, h.mapped]
    case alone =>
      intro x hx
      rw [ht.slotRef] at hx
      exact h.alone x hx
  case bytes => exact hbytes

/-- Mapping another page elsewhere leaves a page intact. -/
theorem Inserted.intact {va : Word} {hva : va.toNat < UTOP} {p : Nat}
    (h : Inserted avail e va hva p s s') (hs : Wf avail ∅ s) (hq : Sole s a q)
    (hne : pteAddr e va hva ≠ a) :
  Intact a q s s'
  := by
  have hpte : s'.ptes a = s.ptes a := by
    rw [h.edit.ptes, Function.update_of_ne hne.symm]
  have hmapped : s'.slotRef (pageSlot a) = some q := by
    rw [slotRef_pageSlot, hpte, hq.mapped]
  constructor
  case pte => exact hpte
  case sole =>
    constructor
    case mapped => exact hmapped
    case alone =>
      intro x hx
      obtain ⟨-, rfl⟩ | ⟨rfl, -⟩ | ⟨-, hold⟩ := h.slot hx
      · exact (hs.not_ref_of_free h.free (pageSlot a) hq.mapped).elim
      · obtain ⟨l', hl'⟩ := h.wf.mem
        exact (hl'.balanced.owned (.table e _) (pageSlot a) q trivial hx hmapped).symm
      · exact hq.alone x hold
  case bytes => exact h.edit.keeps q hq.shareable

/-- Addresses have the same page table entry if they are in the same page. -/
theorem pteAddr_eq_iff {va vb : Word} (ha : va.toNat < UTOP) (hb : vb.toNat < UTOP) :
  pteAddr e va ha = pteAddr e vb hb ↔ va.toNat / PGSIZE = vb.toNat / PGSIZE
  := by
  have hpage : ∀ va : Word, va.toNat / PGSIZE = PDX va * 1024 + PTX va := by
    intro va
    rw [PDX_eq, PTX_eq, PGSIZE]
    omega
  have hlta := PTX_lt va
  have hltb := PTX_lt vb
  rw [hpage, hpage]
  constructor
  · intro h
    have hd : PDX va = PDX vb := congrArg (fun a : PteAddr => a.2.1.val) h
    have ht : PTX va = PTX vb := congrArg (fun a : PteAddr => a.2.2.val) h
    rw [hd, ht]
  · intro h
    have hd : PDX va = PDX vb := by omega
    have ht : PTX va = PTX vb := by omega
    exact Prod.ext rfl (Prod.ext (Fin.ext hd) (Fin.ext ht))

/-! ### What is done at some pages only -/

/-- From `s` to `s'` the pages that the environment `e` maps at one place only, which is not among
the pages `P`, were left intact. -/
def Spares (e : Fin NENV) (P : Nat → Prop) (s s' : Kernel) : Prop :=
  ∀ (b : Word) (hb : b.toNat < UTOP) (q : Nat), ¬ P (b.toNat / PGSIZE) →
    Sole s (pteAddr e b hb) q → Intact (pteAddr e b hb) q s s'

namespace Spares

variable {P P' : Nat → Prop}

theorem refl (e : Fin NENV) (P : Nat → Prop) (s : Kernel) :
  Spares e P s s
  := fun _ _ _ _ hq => .refl hq

theorem trans (h : Spares e P s s') (h' : Spares e P s' s'') :
  Spares e P s s''
  := by
  intro b hb q hP hq
  have hi := h b hb q hP hq
  exact hi.trans (h' b hb q hP hi.sole)

theorem mono (h : Spares e P s s') (hP : ∀ n, P n → P' n) :
  Spares e P' s s'
  := fun b hb q hn hq => h b hb q (fun hp => hn (hP _ hp)) hq

end Spares

/-- Mapping a page leaves those at other places intact. -/
theorem Inserted.spares {va : Word} {hva : va.toNat < UTOP} {p : Nat}
    (h : Inserted avail e va hva p s s') (hs : Wf avail ∅ s) :
  Spares e (fun n => n = va.toNat / PGSIZE) s s'
  := by
  intro b hb q hn hq
  apply h.intact hs hq
  intro heq
  exact hn ((pteAddr_eq_iff hva hb).mp heq).symm

/-- Changing an environment but for its directory leaves all pages intact. -/
theorem spares_setEnv (e : Fin NENV) (P : Nat → Prop) {e' : Nat} {env : Env}
    (hpg : (s.setEnv e' env).pgdir e' = s.pgdir e') :
  Spares e P s (s.setEnv e' env)
  := by
  obtain ⟨-, -, hpte, hslot⟩ := Kernel.setEnv_views hpg
  have hptes : (s.setEnv e' env).ptes = s.ptes := funext (fun a => hpte a.1 a.2.1 a.2.2)
  intro b hb q _ hq
  constructor
  case pte => rw [hptes]
  case sole =>
    constructor
    case mapped => rw [hptes, hq.mapped]
    case alone =>
      rw [hslot]
      exact hq.alone
  case bytes => exact fun _ _ => rfl

section Store

variable (hs : Wf avail held s) (hpg : s.pgdir e = some pg) {va : Word} (hva : va.toNat < UTOP)
include hs hpg hva

/-- Writing elsewhere leaves a page intact. -/
theorem kernStore_intact (hq : Sole s a q) (hne : pteAddr e va hva ≠ a)
    (hw : Writable (s.pteAt e va)) (b : Byte) (heq : kernStore pg va b s = .ok ((), s')) :
  Intact a q s s'
  := by
  obtain ⟨l, hl⟩ := hs.mem
  obtain ⟨r, hr⟩ := Option.ne_none_iff_exists'.mp hw.1
  have hst : UserStored e s s' := by
    obtain ⟨s1, heq1, hst⟩ := kernStore_ok hs hpg hva hw b
    rw [(ok_inj heq heq1).2]
    exact hst
  have hmem : s'.mem = write8 s.mem (r * PGSIZE + PGOFF va) b := by
    rw [(ok_inj heq (kernStore_eq hs hpg hva hr hw.2 b)).2]
  apply hq.intact (hst.sameTables hl)
  intro o ho
  have hr' : refOf (s.ptes (pteAddr e va hva)) = some r := hr
  have hrq : r ≠ q := hq.ne hr' hne
  have hoff := PGOFF_lt va
  simp only [PGSIZE] at ho hoff
  rw [hmem]
  simp only [write8, PGSIZE]
  apply if_neg
  omega

/-- Writing a byte leaves other pages intact. -/
theorem kernStore_spares (hw : Writable (s.pteAt e va)) (b : Byte)
    (heq : kernStore pg va b s = .ok ((), s')) :
  Spares e (fun n => n = va.toNat / PGSIZE) s s'
  := by
  intro b' hb q hn hq
  apply kernStore_intact hs hpg hva hq _ hw b heq
  intro heq
  exact hn ((pteAddr_eq_iff hva hb).mp heq).symm

end Store

/-! ### Mapping a page in the place of another one -/

/-- A page has one reference if it is mapped at one place only. -/
theorem Sole.refs (h : Sole s a q) :
  s.refs q = 1
  := refCount.eq_one (mem_slots _) (x := pageSlot a) h.mapped (fun x _ hx => h.alone x hx)

/-- A page with a single reference is free once another page is mapped in its place, and it is the
first one of the free pages. -/
theorem pageInsert_gives_back {own : Nat → Nat} {pp r : Nat} {va perm w : Word}
    (h : MemInv avail held own l s) (hpg : s.pgdir e = some pg) (hva : va.toNat < UTOP)
    (hpp : s.Mappable avail l pp) (hr : refOf (s.pteAt e va) = some r)
    (hone : s.refs r + own r = 1) (hne : r ≠ pp) (heq : pageInsert pg pp va perm s = .ok (w, s')) :
  s'.pageFreeList = some r
  := by
  obtain ⟨pt, hpt⟩ : ∃ pt, refOf (s.pde e (PDX va)) = some pt := by
    cases hpt : refOf (s.pde e (PDX va)) with
    | some pt => use pt
    | none =>
        rw [Kernel.pteAt, Kernel.pte, hpt, refOf_zero] at hr
        cases hr
  obtain ⟨-, heq'⟩ | ⟨h0, -⟩ := pageInsert_of_lab (pageInsert_replaces h hpg hva hpp hpt hr perm)
  · have hs' := (ok_inj heq heq').2
    have hcount : (s.pages r).ppRef = 1 := by
      have hx : s.slotRef (pageSlot (pteAddr e va hva)) = some r := hr
      have hcounted := h.balanced.counted r (Kernel.mem_avail h hx)
      have htotal : (s.store l held own).total slots r = s.refs r + own r := rfl
      rw [htotal, hone] at hcounted
      exact hcounted
    have hlast : ((((s.incref pp).setEntry pt (PTX va) (page2pa pp ||| perm ||| PTE_P)).pages
        r).ppRef + 65535) % 65536 = 0 := by
      simp only [Kernel.setEntry, Kernel.incref, Kernel.setPage, Function.update_of_ne hne, hcount]
    rw [decref_eq_freed hlast] at hs'
    rw [hs']
    rfl
  · cases h0

/-- A page that is mapped in the place of another one keeps its bytes, as does the other one, which
is the first of the free pages then. -/
theorem regionAllocAt_swaps {p r : Nat} {va : Word} (h : Wf avail ∅ s) (hfits : Fits avail s)
    (hpg : s.pgdir e = some pg) (hva : va.toNat < UTOP) (hp : s.pageFreeList = some p)
    (hr : Sole s (pteAddr e va hva) r) :
  ∃ s', regionAllocAt pg va s = .ok ((), s') ∧ Sole s' (pteAddr e va hva) p
    ∧ s'.ptes (pteAddr e va hva) = regionPte p ∧ s'.pageFreeList = some r
    ∧ ∀ x, x = p ∨ x = r → ∀ o < PGSIZE, s'.mem (x * PGSIZE + o) = s.mem (x * PGSIZE + o)
  := by
  obtain ⟨l, hl⟩ := h.mem
  obtain ⟨hnone, -⟩ | ⟨-, -, -, -, htable⟩ | ⟨p', s', heq, hins⟩ :=
    regionAllocAt_cases h hfits hpg hva
  · rw [hnone] at hp
    cases hp
  · -- the page table exists, as the page is mapped
    have hnone : refOf (s.pde e (PDX va)) = none := htable
    have hmapped := hr.mapped
    rw [ptes_pteAddr, Kernel.pteAt, Kernel.pte, hnone, refOf_zero] at hmapped
    cases hmapped
  · cases l with
    | nil =>
        rw [hl.pageFreeList_eq_none.mpr rfl] at hp
        cases hp
    | cons p1 l =>
        obtain rfl := Option.some.inj (hl.chain.1.symm.trans hp)
        have hlt := hl.avail_lt p1 (hl.refs_free List.mem_cons_self).1
        have hnp := hl.npages_le
        have hl1 : MemInv avail {p1} (fun _ => 0) l (claimed s p1) := claimed_memInv hl
        have ht := claimed_sameTables s p1
        have hr1 : Sole (claimed s p1) (pteAddr e va hva) r :=
          (hr.intact ht (fun _ _ => rfl)).sole
        have hpp : (claimed s p1).Mappable avail l p1 :=
          hl1.shareable (Or.inl (Finset.mem_singleton_self p1))
        have hpg1 : (claimed s p1).pgdir e = some pg := hpg
        have hne : r ≠ p1 := by
          rintro rfl
          exact h.not_ref_of_free ⟨_, hl.chain, List.mem_cons_self⟩
            (pageSlot (pteAddr e va hva)) hr.mapped
        have hperm : regionPerm.toNat < 4096 := by decide
        obtain ⟨-, -, hnone⟩ | ⟨s1, l1, heq1, hedit, -, -⟩ :=
          pageInsert_ok hl1 hpg1 hva hpp hperm (fits_sameTables ht hfits)
        · have hmapped := hr1.mapped
          rw [ptes_pteAddr, Kernel.pteAt, Kernel.pte, hnone, refOf_zero] at hmapped
          cases hmapped
        · have hs1 : s' = s1 := (ok_inj heq (regionAllocAt_eq hp heq1)).2
          have hpte : s'.ptes (pteAddr e va hva) = regionPte p1 := by
            rw [hs1, hedit.ptes, Function.update_self]
            rfl
          have hpp' : p' = p1 := by
            have hself := hins.slot_self
            rw [slotRef_pageSlot, hpte, refOf_regionPte (by omega)] at hself
            exact (Option.some.inj hself).symm
          rw [hpp'] at hins
          use s', heq
          refine ⟨⟨hins.slot_self, hins.sole h⟩, hpte, ?_, ?_⟩
          · rw [hs1]
            exact pageInsert_gives_back hl1 hpg1 hva hpp hr1.mapped
              (by rw [hr1.refs]) hne heq1
          · intro x hx
            rw [hs1]
            apply hedit.keeps
            obtain rfl | rfl := hx
            · exact Or.inl (Finset.mem_singleton_self x)
            · exact hr1.shareable

end Root

end Jos
