import Jos.Kern.Wf

/-!
# The system calls that map pages

What `sys_page_alloc`, `sys_page_map` and `sys_page_unmap` do in a well-formed kernel:
they return without a panic, keep the kernel well formed, and edit one page table entry
if they succeed and none if they fail.
-/

namespace Jos

open Bytes

variable {avail held : Finset Nat} {own : Nat → Nat} {l fl : List Nat} {s s' s'' : Kernel}

/-! ### Edits seen from fewer held pages -/

theorem Edit.mono {held' : Finset Nat} {f : PteAddr → Word} (h : Edit held' s s' f)
    (hsub : held ⊆ held') :
  Edit held s s' f
  := by
  constructor
  case quiet => apply h.quiet
  case ptes => apply h.ptes
  case pde => apply h.pde
  case upper => apply h.upper
  case kern => apply h.kern
  case keeps =>
    intro q hq
    apply h.keeps q
    obtain hh | hy := hq
    · left; apply hsub hh
    · right; apply hy

/-- Taking a free page edits no page table entry. -/
theorem Edit.taken {p : Nat} (h : MemInv avail held own (p :: l) s) :
  Edit held s (s.taken p) s.ptes
  := by
  have ht := h.taken_sameTables
  constructor
  case quiet => rfl
  case ptes =>
    funext ⟨e, d, t⟩
    apply ht.pte e d t.isLt
  case pde =>
    intro e d
    have hd := d.isLt
    simp only [NUPDE] at hd
    left
    apply ht.pde e (by omega)
  case upper =>
    intro e d _ hd
    apply ht.pde e hd
  case kern =>
    intro d hd
    apply ht.entry _ (Or.inl rfl) d hd
  case keeps =>
    intro q hq o ho
    have hqp : q ≠ p := by
      rintro rfl
      apply (h.shareable hq).2.1 List.mem_cons_self
    simp only [Kernel.taken, Kernel.zeroPage, Bytes.fill, PGSIZE] at ho ⊢
    rw [if_neg (by omega)]
    rfl

/-- A page just taken is cleared. -/
theorem mem_taken (p : Nat) {o : Nat} (ho : o < PGSIZE) :
  (s.taken p).mem (p * PGSIZE + o) = 0
  := by
  simp only [Kernel.taken, Kernel.zeroPage, Bytes.fill]
  rw [if_pos (by omega)]

theorem fits_sameTables (h : s.SameTables s') (hfits : s.Fits avail own) :
  s'.Fits avail own
  := by
  intro p hp
  rw [refs_sameTables h]
  apply hfits p hp

/-! ### The system calls -/

/-- A page mapped below `UTOP` may be mapped again. -/
theorem shareable_of_mapped {e : Fin NENV} {va : Word} (hva : va.toNat < UTOP) {p : Nat}
    (hp : refOf (s.pteAt e va) = some p) :
  s.Shareable held p
  := by
  right
  use .page e ⟨PDX va, PDX_lt_of_lt_UTOP hva⟩ ⟨PTX va, PTX_lt va⟩
  constructor
  · intro h
    apply h
  · apply hp

/-- A mapped page is not held. -/
theorem MemInv.mapped_notHeld (h : MemInv avail held own l s) {e : Fin NENV} {va : Word}
    (hva : va.toNat < UTOP) {p : Nat} (hp : refOf (s.pteAt e va) = some p) :
  p ∉ held
  := by
  intro hh
  apply h.balanced.ref_ne (h.balanced.held_total p hh)
    (.page e ⟨PDX va, PDX_lt_of_lt_UTOP hva⟩ ⟨PTX va, PTX_lt va⟩) hp

theorem envPgdirOf_eq {e : Nat} {pg : Nat} (h : (s.envs e).envPgdir = some pg) :
  envPgdirOf e s = .ok (pg, s)
  := by
  rw [envPgdirOf, Prog.get_bind, h]
  rfl

theorem ProperPerm.lt {perm : Word} (h : ProperPerm perm) :
  perm.toNat < 4096
  := perm_lt h.2.2

/-- The error `sys_page_alloc` returns. -/
def pageAllocError (s : Kernel) (cur : Nat) (envid va perm : Word) : Word :=
  if ¬ UserPageAddr va ∨ ¬ ProperPerm perm then -E_INVAL
  else if s.findEnv cur envid true = none then -E_BAD_ENV
  else -E_NO_MEM

/-- The error `sys_page_map` returns. -/
def pageMapError (s : Kernel) (cur : Nat) (srcenvid srcva dstenvid dstva perm : Word) : Word :=
  match s.findEnv cur srcenvid true with
  | none => -E_BAD_ENV
  | some se =>
      if s.findEnv cur dstenvid true = none then -E_BAD_ENV
      else if ¬ UserPageAddr srcva ∨ ¬ UserPageAddr dstva ∨ ¬ ProperPerm perm then -E_INVAL
      else if refOf (s.pteAt se srcva) = none then -E_INVAL
      else if perm &&& PTE_W ≠ 0 ∧ s.pteAt se srcva &&& PTE_W = 0 then -E_INVAL
      else -E_NO_MEM

/-- What `sys_page_alloc` has done when it returns `r`: edit nothing and return an error,
which is that of no memory only if there is no page for the page and a page table, or map
a cleared page that was free. -/
def PageAllocDone (held : Finset Nat) (l : List Nat) (cur : Nat) (envid va perm : Word)
    (s : Kernel) (r : Word) (s' : Kernel) : Prop :=
  (r = pageAllocError s cur envid va perm ∧ (r = -E_NO_MEM → l.length < 2)
    ∧ Edit held s s' s.ptes) ∨
  (∃ (e : Fin NENV) (hva : va.toNat < UTOP) (p : Nat), r = 0 ∧ UserPageAddr va
    ∧ ProperPerm perm ∧ s.findEnv cur envid true = some e.val ∧ p ∈ l
    ∧ Edit held s s' (Function.update s.ptes (pteAddr e va hva) (page2pa p ||| perm ||| PTE_P))
    ∧ ∀ o < PGSIZE, s'.mem (p * PGSIZE + o) = 0)

/-- What `sys_page_map` has done when it returns `r`: edit nothing and return an error, or
map the page that is mapped at the source. -/
def PageMapDone (held : Finset Nat) (cur : Nat) (srcenvid srcva dstenvid dstva perm : Word)
    (s : Kernel) (r : Word) (s' : Kernel) : Prop :=
  (r = pageMapError s cur srcenvid srcva dstenvid dstva perm ∧ Edit held s s' s.ptes) ∨
  (∃ (se de : Fin NENV) (hva : dstva.toNat < UTOP) (p : Nat), r = 0 ∧ UserPageAddr srcva
    ∧ UserPageAddr dstva ∧ ProperPerm perm ∧ s.findEnv cur srcenvid true = some se.val
    ∧ s.findEnv cur dstenvid true = some de.val ∧ refOf (s.pteAt se srcva) = some p
    ∧ (perm &&& PTE_W ≠ 0 → s.pteAt se srcva &&& PTE_W ≠ 0)
    ∧ Edit held s s' (Function.update s.ptes (pteAddr de dstva hva) (page2pa p ||| perm ||| PTE_P)))

/-- The error `sys_page_unmap` returns. -/
def pageUnmapError (va : Word) : Word :=
  if ¬ UserPageAddr va then -E_INVAL else -E_BAD_ENV

/-- What `sys_page_unmap` has done when it returns `r`: edit nothing and return an error,
or clear the entry if it was present. -/
def PageUnmapDone (held : Finset Nat) (cur : Nat) (envid va : Word) (s : Kernel) (r : Word)
    (s' : Kernel) : Prop :=
  (r = pageUnmapError va ∧ s' = s) ∨
  (∃ (e : Fin NENV) (hva : va.toNat < UTOP), r = 0 ∧ UserPageAddr va
    ∧ s.findEnv cur envid true = some e.val ∧ Edit held s s' (s.cleared (pteAddr e va hva)))

section Calls

variable (h : MemInv avail held own l s) (hi : EnvInv fl s) {cur : Nat}
  (hcur : s.curenv = some cur) (hlive : s.Live cur)
include h hi hcur hlive

/-- `sys_page_alloc` maps a cleared page that was free. -/
theorem sysPageAlloc_ok (envid va perm : Word) :
  ∃ r s', sysPageAlloc envid va perm s = .ok (r, s')
    ∧ (s.Fits avail own → ∃ l', MemInv avail held own l' s')
    ∧ PageAllocDone held l cur envid va perm s r s'
  := by
  have hfail : ∀ r, sysPageAlloc envid va perm s = .ok (r, s) →
      r = pageAllocError s cur envid va perm → (r = -E_NO_MEM → l.length < 2) →
      ∃ r s', sysPageAlloc envid va perm s = .ok (r, s')
        ∧ (s.Fits avail own → ∃ l', MemInv avail held own l' s')
        ∧ PageAllocDone held l cur envid va perm s r s' := by
    intro r heq hr hmem
    use r, s, heq, fun _ => ⟨l, h⟩
    left
    exact ⟨hr, hmem, .refl s⟩
  by_cases hva : UserPageAddr va
  case neg =>
    apply hfail (-E_INVAL)
    · rw [sysPageAlloc, if_pos hva]
      rfl
    · rw [pageAllocError, if_pos (Or.inl hva)]
    · exact fun h => absurd h (by decide)
  by_cases hperm : ProperPerm perm
  case neg =>
    apply hfail (-E_INVAL)
    · rw [sysPageAlloc, if_neg (not_not.mpr hva), if_pos hperm]
      rfl
    · rw [pageAllocError, if_pos (Or.inr hperm)]
    · exact fun h => absurd h (by decide)
  have hargs : ¬ (¬ UserPageAddr va ∨ ¬ ProperPerm perm) := by
    simp only [not_or, not_not]
    use hva
  have herr : s.findEnv cur envid true ≠ none →
      pageAllocError s cur envid va perm = -E_NO_MEM := by
    intro hne
    rw [pageAllocError, if_neg hargs, if_neg hne]
  cases hfind : s.findEnv cur envid true with
  | none =>
      apply hfail (-E_BAD_ENV)
      · rw [sysPageAlloc, if_neg (not_not.mpr hva), if_neg (not_not.mpr hperm),
          Prog.bind_of_eq (envid2env_eq hcur envid true), hfind]
        rfl
      · rw [pageAllocError, if_neg hargs, if_pos hfind]
      · exact fun h => absurd h (by decide)
  | some e =>
      have helive := findEnv_live hlive hfind
      obtain ⟨pg, henvpg, hpg⟩ := helive.pgdir hi
      cases l with
      | nil =>
          apply hfail (-E_NO_MEM)
          · rw [sysPageAlloc, if_neg (not_not.mpr hva), if_neg (not_not.mpr hperm),
              Prog.bind_of_eq (envid2env_eq hcur envid true), hfind]
            simp only
            rw [Prog.bind_of_eq (pageAlloc_eq_none (h.pageFreeList_eq_none.mpr rfl))]
            rfl
          · rw [herr (by rw [hfind]; simp)]
          · exact fun _ => by simp
      | cons p l =>
          have hp := h.refs_free List.mem_cons_self
          have hlt := h.avail_lt p hp.1
          have h1 := h.taken
          have ht := h.taken_sameTables
          have hpg1 : (s.taken p).pgdir e = some pg := by
            rw [ht.pgdir]
            apply hpg
          have henvpg1 : ((s.taken p).envs e).envPgdir = some pg := henvpg
          have hpp : (s.taken p).Shareable (insert p held) p := by
            left
            apply Finset.mem_insert_self
          have herase : (insert p held).erase p = held := Finset.erase_insert hp.2.1
          have hsub : held ⊆ insert p held := Finset.subset_insert p held
          have hedit := Edit.taken h
          obtain ⟨hins, hnil, -⟩ | ⟨s', hins, hedit', hinv'⟩ :=
            pageInsert_ok (e := ⟨e, helive.1⟩) h1 hpg1 hva.1 (h1.shareable hpp) perm
          · obtain ⟨href, hlink⟩ := h1.held_page (Finset.mem_insert_self p held)
            use -E_NO_MEM, (s.taken p).freed p
            constructor
            · rw [sysPageAlloc, if_neg (not_not.mpr hva), if_neg (not_not.mpr hperm),
                Prog.bind_of_eq (envid2env_eq hcur envid true), hfind]
              simp only
              rw [Prog.bind_of_eq (pageAlloc_eq_some h.chain.1 hlt h.npages_le)]
              simp only
              rw [Prog.bind_of_eq (envPgdirOf_eq henvpg1), Prog.bind_of_eq hins, if_pos (by decide),
                Prog.bind_of_eq (pageFree_eq href hlink)]
              rfl
            · constructor
              · intro _
                use p :: l
                have h2 := h1.freed (Finset.mem_insert_self p held)
                rw [herase] at h2
                apply h2
              · left
                use (herr (by rw [hfind]; simp)).symm, fun _ => by simp [hnil]
                have hq : Quiet (s.taken p) ((s.taken p).freed p) := rfl
                apply hedit.trans_mem hq rfl
          · use 0, s'
            constructor
            · rw [sysPageAlloc, if_neg (not_not.mpr hva), if_neg (not_not.mpr hperm),
                Prog.bind_of_eq (envid2env_eq hcur envid true), hfind]
              simp only
              rw [Prog.bind_of_eq (pageAlloc_eq_some h.chain.1 hlt h.npages_le)]
              simp only
              rw [Prog.bind_of_eq (envPgdirOf_eq henvpg1), Prog.bind_of_eq hins, if_neg (by simp)]
              rfl
            · constructor
              · intro hfits
                have h2 := hinv' hperm.lt (fits_sameTables ht hfits)
                rw [herase] at h2
                apply h2
              · right
                use ⟨e, helive.1⟩, hva.1, p, rfl, hva, hperm, hfind, List.mem_cons_self
                constructor
                · rw [hedit.ptes] at hedit'
                  apply hedit.trans (hedit'.mono hsub)
                · intro o ho
                  rw [hedit'.keeps p hpp o ho]
                  apply mem_taken p ho

/-- `sys_page_map` maps the page that is mapped at the source. -/
theorem sysPageMap_ok (srcenvid srcva dstenvid dstva perm : Word) :
  ∃ r s', sysPageMap srcenvid srcva dstenvid dstva perm s = .ok (r, s')
    ∧ (s.Fits avail own → ∃ l', MemInv avail held own l' s')
    ∧ PageMapDone held cur srcenvid srcva dstenvid dstva perm s r s'
  := by
  have hfail : ∀ r, sysPageMap srcenvid srcva dstenvid dstva perm s = .ok (r, s) →
      r = pageMapError s cur srcenvid srcva dstenvid dstva perm →
      ∃ r s', sysPageMap srcenvid srcva dstenvid dstva perm s = .ok (r, s')
        ∧ (s.Fits avail own → ∃ l', MemInv avail held own l' s')
        ∧ PageMapDone held cur srcenvid srcva dstenvid dstva perm s r s' := by
    intro r heq hr
    use r, s, heq, fun _ => ⟨l, h⟩
    left
    constructor
    · apply hr
    · apply Edit.refl
  cases hsrc : s.findEnv cur srcenvid true with
  | none =>
      apply hfail (-E_BAD_ENV)
      · rw [sysPageMap, Prog.bind_of_eq (envid2env_eq hcur srcenvid true), hsrc]
        rfl
      · rw [pageMapError, hsrc]
  | some se =>
  cases hdst : s.findEnv cur dstenvid true with
  | none =>
      apply hfail (-E_BAD_ENV)
      · rw [sysPageMap, Prog.bind_of_eq (envid2env_eq hcur srcenvid true), hsrc]
        simp only
        rw [Prog.bind_of_eq (envid2env_eq hcur dstenvid true), hdst]
        rfl
      · simp only [pageMapError, hsrc, hdst, if_true]
  | some de =>
  by_cases hva : ¬ UserPageAddr srcva ∨ ¬ UserPageAddr dstva
  case pos =>
    apply hfail (-E_INVAL)
    · rw [sysPageMap, Prog.bind_of_eq (envid2env_eq hcur srcenvid true), hsrc]
      simp only
      rw [Prog.bind_of_eq (envid2env_eq hcur dstenvid true), hdst]
      simp only
      rw [if_pos hva]
      rfl
    · simp only [pageMapError, hsrc, hdst]
      rw [if_neg (by simp), if_pos]
      obtain hva | hva := hva
      · left; apply hva
      · right; left; apply hva
  by_cases hperm : ProperPerm perm
  case neg =>
    apply hfail (-E_INVAL)
    · rw [sysPageMap, Prog.bind_of_eq (envid2env_eq hcur srcenvid true), hsrc]
      simp only
      rw [Prog.bind_of_eq (envid2env_eq hcur dstenvid true), hdst]
      simp only
      rw [if_neg hva, if_pos hperm]
      rfl
    · simp only [pageMapError, hsrc, hdst]
      rw [if_neg (by simp), if_pos (Or.inr (Or.inr hperm))]
  simp only [not_or, not_not] at hva
  have hargs : ¬ (¬ UserPageAddr srcva ∨ ¬ UserPageAddr dstva ∨ ¬ ProperPerm perm) := by
    simp only [not_or, not_not]
    use hva.1, hva.2
  have hselive := findEnv_live hlive hsrc
  have hdelive := findEnv_live hlive hdst
  obtain ⟨sepg, hsepg, hsepg'⟩ := hselive.pgdir hi
  obtain ⟨depg, hdepg, hdepg'⟩ := hdelive.pgdir hi
  have hnone : pageLookup sepg srcva s = .ok (none, s) →
      sysPageMap srcenvid srcva dstenvid dstva perm s = .ok (-E_INVAL, s) := by
    intro hlookup
    rw [sysPageMap, Prog.bind_of_eq (envid2env_eq hcur srcenvid true), hsrc]
    simp only
    rw [Prog.bind_of_eq (envid2env_eq hcur dstenvid true), hdst]
    simp only
    rw [if_neg (by simp [hva]), if_neg (not_not.mpr hperm), Prog.bind_of_eq (envPgdirOf_eq hsepg),
      Prog.bind_of_eq hlookup]
    rfl
  have hsome : ∀ page septe, pageLookup sepg srcva s = .ok (some (page, septe), s) →
      sysPageMap srcenvid srcva dstenvid dstva perm s = (do
        if perm &&& PTE_W ≠ 0 ∧ s.entry septe.1 septe.2 &&& PTE_W = 0 then
          pure (-E_INVAL)
        else
          let depgdir ← envPgdirOf de
          let r ← pageInsert depgdir page dstva perm
          if r ≠ 0 then
            pure (-E_NO_MEM)
          else
            pure 0 : Prog Kernel Word) s := by
    intro page septe hlookup
    rw [sysPageMap, Prog.bind_of_eq (envid2env_eq hcur srcenvid true), hsrc]
    simp only
    rw [Prog.bind_of_eq (envid2env_eq hcur dstenvid true), hdst]
    simp only
    rw [if_neg (by simp [hva]), if_neg (not_not.mpr hperm), Prog.bind_of_eq (envPgdirOf_eq hsepg),
      Prog.bind_of_eq hlookup]
    simp only
    apply Prog.get_bind
  cases hq : refOf (s.pteAt se srcva) with
  | none =>
      apply hfail (-E_INVAL)
      · apply hnone
        apply pageLookup_eq_none h (e := ⟨se, hselive.1⟩) hsepg' hva.1.1 hq
      · simp only [pageMapError, hsrc, hdst]
        rw [if_neg (by simp), if_neg hargs, if_pos hq]
  | some p =>
  obtain ⟨pt, -, hentry, hlookup⟩ :=
    pageLookup_eq_some h (e := ⟨se, hselive.1⟩) hsepg' hva.1.1 hq
  by_cases hw : perm &&& PTE_W ≠ 0 ∧ s.pteAt se srcva &&& PTE_W = 0
  case pos =>
    apply hfail (-E_INVAL)
    · rw [hsome _ _ hlookup, hentry, if_pos hw]
      rfl
    · simp only [pageMapError, hsrc, hdst]
      rw [if_neg (by simp), if_neg hargs, if_neg (by rw [hq]; simp), if_pos hw]
  have hpp : s.Shareable held p := shareable_of_mapped (e := ⟨se, hselive.1⟩) hva.1.1 hq
  obtain ⟨hins, -⟩ | ⟨s', hins, hedit, hinv⟩ :=
    pageInsert_ok (e := ⟨de, hdelive.1⟩) h hdepg' hva.2.1 (h.shareable hpp) perm
  · apply hfail (-E_NO_MEM)
    · rw [hsome _ _ hlookup, hentry, if_neg hw, Prog.bind_of_eq (envPgdirOf_eq hdepg),
        Prog.bind_of_eq hins, if_pos (by decide)]
      rfl
    · simp only [pageMapError, hsrc, hdst]
      rw [if_neg (by simp), if_neg hargs, if_neg (by rw [hq]; simp), if_neg hw]
  · use 0, s'
    constructor
    · rw [hsome _ _ hlookup, hentry, if_neg hw, Prog.bind_of_eq (envPgdirOf_eq hdepg),
        Prog.bind_of_eq hins, if_neg (by simp)]
      rfl
    · constructor
      · intro hfits
        obtain ⟨l', h'⟩ := hinv hperm.lt hfits
        use l'
        rw [Finset.erase_eq_of_notMem] at h'
        · apply h'
        · apply h.mapped_notHeld (e := ⟨se, hselive.1⟩) hva.1.1 hq
      · right
        use ⟨se, hselive.1⟩, ⟨de, hdelive.1⟩, hva.2.1, p, rfl, hva.1, hva.2, hperm, hsrc, hdst, hq
        constructor
        · intro hw1 hw2
          apply hw ⟨hw1, hw2⟩
        · apply hedit

/-- `sys_page_unmap` clears the entry if it was present. -/
theorem sysPageUnmap_ok (envid va : Word) :
  ∃ r s', sysPageUnmap envid va s = .ok (r, s')
    ∧ (s.Fits avail own → ∃ l', MemInv avail held own l' s')
    ∧ PageUnmapDone held cur envid va s r s'
  := by
  by_cases hva : UserPageAddr va
  case neg =>
    use -E_INVAL, s
    constructor
    · rw [sysPageUnmap, if_pos hva]
      rfl
    · use fun _ => ⟨l, h⟩
      left
      rw [pageUnmapError, if_pos hva]
      constructor
      · rfl
      · rfl
  cases hfind : s.findEnv cur envid true with
  | none =>
      use -E_BAD_ENV, s
      constructor
      · rw [sysPageUnmap, if_neg (not_not.mpr hva), Prog.bind_of_eq (envid2env_eq hcur envid true),
          hfind]
        rfl
      · use fun _ => ⟨l, h⟩
        left
        rw [pageUnmapError, if_neg (not_not.mpr hva)]
        constructor
        · rfl
        · rfl
  | some e =>
      have helive := findEnv_live hlive hfind
      obtain ⟨pg, henvpg, hpg⟩ := helive.pgdir hi
      obtain ⟨s', heq, hedit, -, hinv⟩ := pageRemove_ok h (e := ⟨e, helive.1⟩) hpg hva.1
      use 0, s'
      constructor
      · rw [sysPageUnmap, if_neg (not_not.mpr hva), Prog.bind_of_eq (envid2env_eq hcur envid true),
          hfind]
        simp only
        rw [Prog.bind_of_eq (envPgdirOf_eq henvpg), Prog.bind_of_eq heq]
        rfl
      · constructor
        · intro hfits
          apply hinv
          intro q hq
          have hx : s.slotRef (.page ⟨e, helive.1⟩ ⟨PDX va, PDX_lt_of_lt_UTOP hva.1⟩
              ⟨PTX va, PTX_lt va⟩) = some q := hq
          have := hfits q (Kernel.mem_avail h hx)
          omega
        · right
          use ⟨e, helive.1⟩, hva.1, rfl, hva, hfind

end Calls

end Jos
