import Jos.Kern.Traps

/-!
# What a change of a mapping leaves alone

A mapping is changed in the page tables of one environment, with pages from the free list,
and nothing else that the processor uses for translation changes.  So the page tables of other
environments, and those of the kernel, are not written to.
-/

namespace Jos

open Bytes Prog

variable {avail held : Finset Nat} {own : Nat → Nat} {l fl : List Nat} {s s' s'' : Kernel}
  {cur : Nat}

/-! ### Words that are not written to -/

/-- Memory is the same. -/
def SameMem (s s' : Kernel) : Prop :=
  s'.mem = s.mem

theorem SameMem.composes :
  Composes SameMem
  := ⟨fun _ => rfl, fun h h' => h'.trans h⟩

theorem SameMem.entry (h : SameMem s s') (p i : Nat) :
  s'.entry p i = s.entry p i
  := by
  rw [SameMem] at h
  rw [Kernel.entry, Kernel.entry, h]

theorem pageFree_sameMem (pp : Nat) :
  Keeps SameMem (pageFree pp)
  := by
  apply keeps_get_bind
  intro s
  rw [mayEnd_ite]
  refine ⟨fun _ => mayEnd_panic _, ?_⟩
  intro _
  rw [mayEnd_ite]
  exact ⟨fun _ => mayEnd_panic _, fun _ => mayEnd_set.mpr rfl⟩

theorem pageIncref_sameMem (pp : Nat) :
  Keeps SameMem (pageIncref pp)
  := keeps_modify (fun _ => rfl)

theorem pageDecref_sameMem (pp : Nat) :
  Keeps SameMem (pageDecref pp)
  := by
  apply keeps_bind SameMem.composes
  · exact keeps_modify (fun _ => rfl)
  · intro _
    apply keeps_bind SameMem.composes (keeps_get SameMem.composes)
    exact fun _ => keeps_ite (pageFree_sameMem pp) (keeps_pure SameMem.composes ())

/-- The word `i` of the page `p` is neither an entry for `va` in the directory `pg` or in a
page table of it, nor in the next free page. -/
structure Spared (pg : Nat) (va : Word) (p i : Nat) (s : Kernel) : Prop where
  lt : i < 1024
  dir : p = pg → i ≠ PDX va
  table : refOf (s.entry pg (PDX va)) = some p → i ≠ PTX va
  free : ∀ q, s.pageFreeList = some q → q < 2 ^ 20 ∧ q ≠ p

section Spared

variable {pg p i : Nat} {va : Word}

/-- Taking a free page clears that page only. -/
theorem pageAlloc_spared (hi : i < 1024)
    (hfree : ∀ q, s.pageFreeList = some q → q < 2 ^ 20 ∧ q ≠ p) :
  pageAlloc.MayEnd s (fun r s' => (∀ q, r = some q → s.pageFreeList = some q)
    ∧ s'.entry p i = s.entry p i) (fun _ => False)
  := by
  rw [pageAlloc, mayEnd_bind, mayEnd_get]
  cases hlist : s.pageFreeList with
  | none => exact mayEnd_pure _ |>.mpr ⟨fun q hq => hq, rfl⟩
  | some q =>
      obtain ⟨hlt, hne⟩ := hfree q hlist
      simp only
      rw [mayEnd_bind, mayEnd_set, page2kva, KADDR, mayEnd_bind, mayEnd_bind, mayEnd_get,
        mayEnd_ite]
      refine ⟨fun _ => mayEnd_panic _, ?_⟩
      intro _
      rw [mayEnd_pure, mayEnd_bind, mayEnd_modify, mayEnd_pure, PGNUM_page2pa hlt]
      refine ⟨fun q' hq' => hq', ?_⟩
      rw [Kernel.entry_zeroPage_of_ne _ hi hne.symm]
      rfl

/-- Walking finds the page table that the directory refers to. -/
theorem pgdirWalk_spared (create : Bool) (h : Spared pg va p i s) :
  (pgdirWalk pg va create).MayEnd s (fun r s' => s'.entry p i = s.entry p i
    ∧ ∀ pt, r = some pt → pt.2 = PTX va ∧ refOf (s'.entry pg (PDX va)) = some pt.1
      ∧ (p = pt.1 → i ≠ PTX va)) (fun _ => False)
  := by
  rw [pgdirWalk, mayEnd_bind, mayEnd_get]
  simp only
  rw [mayEnd_ite]
  constructor
  · intro _
    rw [mayEnd_ite]
    constructor
    · intro _
      rw [mayEnd_pure]
      exact ⟨rfl, fun pt hpt => by cases hpt⟩
    · intro _
      rw [mayEnd_bind]
      apply (pageAlloc_spared h.lt h.free).mono _ (fun _ h => h)
      rintro r s1 ⟨hr, h1⟩
      cases r with
      | none => exact mayEnd_pure _ |>.mpr ⟨h1, fun pt hpt => by cases hpt⟩
      | some q =>
          obtain ⟨hlt, hne⟩ := h.free q (hr q rfl)
          simp only
          rw [mayEnd_bind]
          apply (pageIncref_sameMem q s1).mono _ (fun _ h => h)
          intro _ s2 h2
          rw [mayEnd_bind, mayEnd_modify, KADDR, mayEnd_bind, mayEnd_bind, mayEnd_get, mayEnd_ite]
          refine ⟨fun _ => mayEnd_panic _, ?_⟩
          intro _
          rw [mayEnd_pure, mayEnd_pure, PGNUM_page2pa hlt]
          have hdir : p ≠ pg ∨ i ≠ PDX va := by
            by_cases hp : p = pg
            · exact Or.inr (h.dir hp)
            · exact Or.inl hp
          constructor
          · rw [Kernel.entry_setEntry_of_ne _ _ (PDX_lt va) h.lt hdir, h2.entry, h1]
          · rintro pt hpt
            obtain rfl := Option.some.inj hpt
            refine ⟨rfl, ?_, fun hp => (hne hp.symm).elim⟩
            rw [Kernel.entry_setEntry]
            exact refOf_tableEntry hlt
  · intro hpresent
    rw [mayEnd_bind, KADDR, mayEnd_bind, mayEnd_get, mayEnd_ite]
    refine ⟨fun _ => mayEnd_panic _, ?_⟩
    intro _
    rw [mayEnd_pure, mayEnd_pure]
    refine ⟨rfl, ?_⟩
    intro pt hpt
    obtain rfl := Option.some.inj hpt
    have href : refOf (s.entry pg (PDX va)) = some (PGNUM (PTE_ADDR (s.entry pg (PDX va)))) :=
      refOf_eq_some.mpr ⟨hpresent, rfl⟩
    exact ⟨rfl, href, fun hp => h.table (hp ▸ href)⟩

/-- Looking up changes nothing. -/
theorem pageLookup_spared :
  (pageLookup pg va).MayEnd s (fun r s' => s' = s ∧ ∀ q pt, r = some (q, pt) →
    pt.2 = PTX va ∧ refOf (s.entry pg (PDX va)) = some pt.1) (fun _ => False)
  := by
  rw [pageLookup, mayEnd_bind, pgdirWalk, mayEnd_bind, mayEnd_get]
  simp only
  rw [mayEnd_ite]
  constructor
  · intro _
    rw [mayEnd_ite]
    refine ⟨?_, fun h => (h trivial).elim⟩
    intro _
    rw [mayEnd_pure]
    exact mayEnd_pure _ |>.mpr ⟨rfl, fun q pt hpt => by cases hpt⟩
  · intro hpresent
    rw [mayEnd_bind, KADDR, mayEnd_bind, mayEnd_get, mayEnd_ite]
    refine ⟨fun _ => mayEnd_panic _, ?_⟩
    intro _
    rw [mayEnd_pure, mayEnd_pure]
    simp only
    rw [mayEnd_bind, mayEnd_get, mayEnd_ite]
    constructor
    · intro _
      rw [mayEnd_pure]
      exact ⟨rfl, fun q pt hpt => by cases hpt⟩
    · intro _
      rw [mayEnd_bind, pa2page, mayEnd_bind, mayEnd_get, mayEnd_ite]
      refine ⟨fun _ => mayEnd_panic _, ?_⟩
      intro _
      rw [mayEnd_pure, mayEnd_pure]
      refine ⟨rfl, ?_⟩
      intro q pt hpt
      obtain ⟨-, rfl⟩ := Prod.mk.inj (Option.some.inj hpt)
      exact ⟨rfl, refOf_eq_some.mpr ⟨hpresent, rfl⟩⟩

/-- Unmapping writes to the page table entry only. -/
theorem pageRemove_spared (hi : i < 1024)
    (htable : refOf (s.entry pg (PDX va)) = some p → i ≠ PTX va) :
  (pageRemove pg va).MayEnd s (fun _ s' => s'.entry p i = s.entry p i) (fun _ => False)
  := by
  rw [pageRemove, mayEnd_bind]
  apply pageLookup_spared.mono _ (fun _ h => h)
  rintro r s1 ⟨rfl, hr⟩
  cases r with
  | none => exact mayEnd_pure _ |>.mpr rfl
  | some r =>
      obtain ⟨q, pt⟩ := r
      obtain ⟨hpt, href⟩ := hr q pt rfl
      simp only
      rw [mayEnd_bind]
      apply (pageDecref_sameMem q s1).mono _ (fun _ h => h)
      intro _ s2 h2
      rw [mayEnd_modify, Kernel.entry_setEntry_of_ne, h2.entry]
      · rw [hpt]
        exact PTX_lt va
      · exact hi
      · by_cases hp : p = pt.1
        · right
          rw [hpt]
          exact htable (hp ▸ href)
        · exact Or.inl hp

/-- Mapping a page writes to the directory entry and the page table entry only. -/
theorem pageInsert_spared (pp : Nat) (perm : Word) (h : Spared pg va p i s) :
  (pageInsert pg pp va perm).MayEnd s (fun _ s' => s'.entry p i = s.entry p i) (fun _ => False)
  := by
  rw [pageInsert, mayEnd_bind]
  apply (pgdirWalk_spared true h).mono _ (fun _ h => h)
  rintro r s1 ⟨h1, hr⟩
  cases r with
  | none => exact mayEnd_pure _ |>.mpr h1
  | some pt =>
      obtain ⟨hpt, href, hne⟩ := hr pt rfl
      have hother : p ≠ pt.1 ∨ i ≠ pt.2 := by
        by_cases hp : p = pt.1
        · exact Or.inr (hpt ▸ hne hp)
        · exact Or.inl hp
      have hlt : pt.2 < 1024 := by
        rw [hpt]
        exact PTX_lt va
      simp only
      rw [mayEnd_bind, mayEnd_get, mayEnd_ite]
      constructor
      · intro _
        rw [mayEnd_bind, mayEnd_modify, mayEnd_bind]
        apply (pageIncref_sameMem pp _).mono _ (fun _ h => h)
        intro _ s2 h2
        rw [mayEnd_pure, h2.entry, Kernel.entry_setEntry_of_ne _ _ hlt h.lt hother, h1]
      · intro _
        rw [mayEnd_bind]
        apply (pageIncref_sameMem pp s1).mono _ (fun _ h => h)
        intro _ s2 h2
        have htable : refOf (s2.entry pg (PDX va)) = some p → i ≠ PTX va := by
          rw [h2.entry, href]
          exact fun hp => hne (Option.some.inj hp).symm
        rw [mayEnd_bind]
        apply (pageRemove_spared h.lt htable).mono _ (fun _ h => h)
        intro _ s3 h3
        rw [mayEnd_bind, mayEnd_modify, mayEnd_pure,
          Kernel.entry_setEntry_of_ne _ _ hlt h.lt hother, h3, h2.entry, h1]

end Spared

/-! ### Words of other page tables -/

/-- The word `i` of the page `p` is used for translation, but is neither in a page table of
the environment `e` nor one of the entries `D` of its directory. -/
inductive Kernel.Foreign (s : Kernel) (e : Fin NENV) (D : Nat → Prop) (p i : Nat) : Prop
  | kern (hp : p = s.kernPgdir)
  | slot {x : Slot} (ho : x.Owns) (href : s.slotRef x = some p) (hdir : x ≠ .dir e)
    (htable : ∀ d, x ≠ .table e d)
  | dir (href : s.slotRef (.dir e) = some p) (hi : ¬ D i)

/-- From `s` to `s'` only page tables of the environment `e` and the entries `D` of its
directory were written to, of all that is used for translation. -/
def Kept (e : Fin NENV) (D : Nat → Prop) (s s' : Kernel) : Prop :=
  ∀ p i, i < 1024 → s.Foreign e D p i → s'.entry p i = s.entry p i

namespace Kernel.Foreign

variable {e : Fin NENV} {D D' : Nat → Prop} {p i : Nat} (hf : s.Foreign e D p i)
include hf

theorem isTable :
  s.IsTable p
  := by
  cases hf with
  | kern hp => exact Or.inl hp
  | slot ho href => exact Or.inr ⟨_, ho, href⟩
  | dir href => exact Or.inr ⟨.dir e, trivial, href⟩

/-- Only the directory of `e` can be a page with such words and entries that are written to. -/
theorem not_dir (h : MemInv avail held own l s) (href : s.slotRef (.dir e) = some p) :
  ¬ D i
  := by
  cases hf with
  | kern hp => exact (ne_kernPgdir h href hp).elim
  | slot ho href' hdir => exact (ref_ne_of_owns h href trivial href' hdir rfl).elim
  | dir _ hi => exact hi

/-- No page table of `e` has such words. -/
theorem not_table (h : MemInv avail held own l s) (d : Fin NUPDE) :
  s.slotRef (.table e d) ≠ some p
  := by
  intro href
  cases hf with
  | kern hp => exact ne_kernPgdir h href hp
  | slot ho href' _ htable => exact ref_ne_of_owns h href trivial href' (htable d) rfl
  | dir href' => exact ref_ne_of_owns h href trivial href' (by simp) rfl

/-- No free page has such words. -/
theorem not_free (h : MemInv avail held own l s) (q : Nat) (hq : s.pageFreeList = some q) :
  q < 2 ^ 20 ∧ q ≠ p
  := by
  cases l with
  | nil =>
      rw [h.pageFreeList_eq_none.mpr rfl] at hq
      cases hq
  | cons q' l =>
      have hhead := h.chain.1
      rw [hq] at hhead
      obtain rfl := Option.some.inj hhead
      obtain ⟨hmem, -, href, -⟩ := h.refs_free List.mem_cons_self
      have hlt := h.avail_lt q hmem
      have hle := h.npages_le
      refine ⟨by omega, ?_⟩
      rintro rfl
      exact not_isTable h hmem href hf.isTable

/-- Mapping a page in `e` does not write to such a word. -/
theorem spared (h : MemInv avail held own l s) {pg : Nat} {va : Word} (hpg : s.pgdir e = some pg)
    (hva : va.toNat < UTOP) (hD : D (PDX va)) (hi : i < 1024) :
  Spared pg va p i s
  := by
  constructor
  case lt => exact hi
  case dir =>
    rintro rfl hpdx
    exact hf.not_dir h hpg (hpdx ▸ hD)
  case table =>
    intro href
    have hpde : s.slotRef (.table e ⟨PDX va, PDX_lt_of_lt_UTOP hva⟩) = some p := by
      rw [slotRef, pde, hpg]
      exact href
    exact (hf.not_table h _ hpde).elim
  case free => exact hf.not_free h

end Kernel.Foreign

namespace Kept

variable {e : Fin NENV} {D E : Nat → Prop}

/-- Another environment that has the same directory has the same address space. -/
theorem pde (h : Kept e D s s') {b : Fin NENV} (hb : b ≠ e) (hpg : s'.pgdir b = s.pgdir b)
    {d : Nat} (hd : d < 1024) :
  s'.pde b d = s.pde b d
  := by
  rw [Kernel.pde, Kernel.pde, hpg]
  cases hdir : s.pgdir b with
  | none => rfl
  | some pg =>
      apply h pg d hd
      refine .slot (x := .dir b) trivial hdir ?_ (by simp)
      intro heq
      exact hb (Slot.dir.inj heq)

end Kept

/-! ### Mapping and unmapping -/

section Pages

variable (h : MemInv avail held own l s) {e : Fin NENV} {pg : Nat} {va : Word}
  (hpg : s.pgdir e = some pg) (hva : va.toNat < UTOP)
include h hpg hva

theorem pageInsert_kept (pp : Nat) (perm : Word) :
  (pageInsert pg pp va perm).MayEnd s (fun _ s' => Kept e (fun d => d = PDX va) s s')
    (fun _ => False)
  := by
  have hspared : ∀ p i, i < 1024 → s.Foreign e (fun d => d = PDX va) p i →
      (pageInsert pg pp va perm).MayEnd s (fun _ s' => s'.entry p i = s.entry p i)
        (fun _ => False) :=
    fun p i hi hf => pageInsert_spared pp perm (hf.spared h hpg hva rfl hi)
  apply mayEnd_intro
  · exact fun _ s' heq p i hi hf => (hspared p i hi hf).of_eq heq
  · exact fun s' heq => (hspared s.kernPgdir 0 (by decide) (.kern rfl)).of_leave heq

end Pages

end Jos
