import Jos.Kern.Envs

/-!
# Freeing an environment

`env_free` walks over the page tables of an environment, removes every page mapped in
them, and gives up the page tables and the page directory.  While it runs, slots of this
environment only let go of what they refer to, and everything else stays as it is.
-/

namespace Jos

open Bytes

variable {avail held : Finset Nat} {own : Nat → Nat} {l fl : List Nat} {s s' s'' : Kernel}

/-- From `s` to `s'` slots of the environment `e` let go of what they refer to. -/
structure Freeing (held : Finset Nat) (e : Fin NENV) (s s' : Kernel) : Prop where
  quiet : Quiet s s'
  pde : ∀ e' : Fin NENV, e' ≠ e → ∀ d < 1024, s'.pde e' d = s.pde e' d
  pte : ∀ e' : Fin NENV, e' ≠ e → ∀ (d : Fin NUPDE) (t : Fin NPTENTRIES),
    s'.pte e' d t = s.pte e' d t
  upper : ∀ d, NUPDE ≤ d → d < 1024 → s'.pde e d = s.pde e d
  shrinks : ∀ x, s'.slotRef x = s.slotRef x ∨ s'.slotRef x = none
  kern : ∀ d < 1024, s'.entry s.kernPgdir d = s.entry s.kernPgdir d
  keeps : ∀ q, s'.Shareable held q → ∀ o < PGSIZE, s'.mem (q * PGSIZE + o) = s.mem (q * PGSIZE + o)

/-- A slot that refers to a page did so before. -/
theorem shrinks_some {x : Slot} {p : Nat} (h : ∀ x, s'.slotRef x = s.slotRef x ∨ s'.slotRef x = none)
    (hx : s'.slotRef x = some p) :
  s.slotRef x = some p
  := by
  obtain heq | hnone := h x
  · rw [← heq]
    apply hx
  · rw [hnone] at hx
    cases hx

/-- Letting go of pages makes no page referenced more often. -/
theorem refs_le (h : ∀ x, s'.slotRef x = s.slotRef x ∨ s'.slotRef x = none) (q : Nat) :
  s'.refs q ≤ s.refs q
  := by
  apply refCount.mono
  intro x _ hx
  apply shrinks_some h hx

namespace Freeing

variable {e : Fin NENV}

theorem refl (held : Finset Nat) (e : Fin NENV) (s : Kernel) :
  Freeing held e s s
  := by
  constructor
  case quiet => apply Quiet.refl
  case pde =>
    intro _ _ _ _
    rfl
  case pte =>
    intro _ _ _ _
    rfl
  case upper =>
    intro _ _ _
    rfl
  case shrinks =>
    intro _
    left; rfl
  case kern =>
    intro _ _
    rfl
  case keeps =>
    intro _ _ _ _
    rfl

theorem trans (h : Freeing held e s s') (h' : Freeing held e s' s'') :
  Freeing held e s s''
  := by
  constructor
  case quiet => apply h.quiet.trans h'.quiet
  case pde =>
    intro e' he d hd
    rw [h'.pde e' he d hd, h.pde e' he d hd]
  case pte =>
    intro e' he d t
    rw [h'.pte e' he d t, h.pte e' he d t]
  case upper =>
    intro d hd hd'
    rw [h'.upper d hd hd', h.upper d hd hd']
  case shrinks =>
    intro x
    obtain heq | hnone := h'.shrinks x
    · rw [heq]
      apply h.shrinks x
    · right
      apply hnone
  case kern =>
    intro d hd
    have hk := h'.kern d hd
    rw [h.quiet.kernPgdir] at hk
    rw [hk, h.kern d hd]
  case keeps =>
    intro q hq o ho
    rw [h'.keeps q hq o ho]
    apply h.keeps q _ o ho
    obtain hh | ⟨y, hy, hr⟩ := hq
    · left; apply hh
    · right
      use y, hy, shrinks_some h'.shrinks hr

/-- Clearing an entry of a page table of `e`. -/
theorem of_cleared {a : PteAddr} (h : Edit held s s' (s.cleared a)) (ha : a.1 = e)
    (hpde : ∀ (e' : Fin NENV) d', d' < 1024 → s'.pde e' d' = s.pde e' d') :
  Freeing held e s s'
  := by
  have hpte : ∀ b, s'.ptes b = s.ptes b ∨ b = a ∧ s'.ptes b = 0 := by
    intro b
    rw [h.ptes, Kernel.cleared]
    split
    · left; rfl
    · by_cases hb : b = a
      · right
        rw [hb, Function.update_self]
        use rfl
      · left
        rw [Function.update_of_ne hb]
  have hshrinks : ∀ x, s'.slotRef x = s.slotRef x ∨ s'.slotRef x = none := by
    intro x
    cases x with
    | dir e' =>
        left
        apply h.quiet.pgdir
    | table e' d' =>
        have hd' := d'.isLt
        simp only [NUPDE] at hd'
        left
        rw [Kernel.slotRef, Kernel.slotRef, hpde e' d' (by omega)]
    | page e' d' t' =>
        rw [Kernel.slotRef, Kernel.slotRef]
        obtain hb | ⟨-, hb⟩ := hpte (e', d', t')
        · left
          apply congrArg refOf hb
        · right
          apply (congrArg refOf hb).trans refOf_zero
    | kern d' =>
        left
        rw [Kernel.slotRef, Kernel.slotRef, h.quiet.kernPgdir, h.kern d' d'.isLt]
  constructor
  case quiet => apply h.quiet
  case pde =>
    intro e' _ d hd
    apply hpde e' d hd
  case pte =>
    intro e' he d t
    obtain hb | ⟨rfl, -⟩ := hpte (e', d, t)
    · apply hb
    · apply (he ha).elim
  case upper =>
    intro d hd hd'
    apply h.upper e d hd hd'
  case shrinks => apply hshrinks
  case kern => apply h.kern
  case keeps =>
    intro q hq o ho
    apply h.keeps q _ o ho
    obtain hh | ⟨y, hy, hr⟩ := hq
    · left; apply hh
    · right
      use y, hy, shrinks_some hshrinks hr

/-- Every page still fits its counter after pages are let go of. -/
theorem fits (h : Freeing held e s s') (hfits : s.Fits avail own) :
  s'.Fits avail own
  := by
  intro p hp
  have := hfits p hp
  have := refs_le h.shrinks p
  omega

end Freeing

/-! ### One page table -/

theorem PGADDR_lt_UTOP {d t : Nat} (hd : d < NUPDE) (ht : t < 1024) :
  (PGADDR d t 0).toNat < UTOP
  := by
  simp only [NUPDE] at hd
  rw [PGADDR_toNat (by omega) ht]
  simp only [UTOP, UENVS, UPAGES, UVPT, ULIM, MMIOBASE, MMIOLIM, KSTACKTOP, KERNBASE, PTSIZE]
  omega

section Table

variable {e : Fin NENV} {d : Fin NUPDE} {pg pt : Nat}

/-- What holds of the state when the first `t` entries of a page table have been visited. -/
def TableFreed (avail held : Finset Nat) (own : Nat → Nat) (e : Fin NENV) (d : Fin NUPDE)
    (s : Kernel) (t : Nat) (s' : Kernel) : Prop :=
  Freeing held e s s' ∧ (∃ l', MemInv avail held own l' s')
    ∧ (∀ d' < 1024, s'.pde e d' = s.pde e d')
    ∧ ∀ t' : Fin NPTENTRIES, t'.val < t → refOf (s'.pte e d t') = none

/-- Visiting one entry of a page table. -/
theorem envFreeTable_step (hpg : s.pgdir e = some pg) (hpt : refOf (s.pde e d) = some pt)
    (hfits : s.Fits avail own) {t : Nat} (ht : t < NPTENTRIES)
    (h : TableFreed avail held own e d s t s') :
  Prog.Ends (do
    let s ← get
    if s.entry pt t &&& PTE_P ≠ 0 then
      pageRemove pg (PGADDR d t 0)
    else
      pure ()) s' (fun _ s'' => TableFreed avail held own e d s (t + 1) s'') (fun _ => False)
  := by
  obtain ⟨hfreeing, ⟨l', hinv⟩, hpde, hnone⟩ := h
  have hd := d.isLt
  simp only [NUPDE] at hd
  have hpt' : refOf (s'.pde e d) = some pt := by
    rw [hpde d (by omega)]
    apply hpt
  have hentry : s'.entry pt t = s'.pte e d t := by
    rw [Kernel.pte, hpt']
  simp only [Prog.ends_bind, Prog.ends_get]
  rw [Prog.ends_ite, hentry]
  constructor
  · intro hpresent
    have hva := PGADDR_lt_UTOP d.isLt ht
    have hpdx : PDX (PGADDR d t 0) = d := PDX_PGADDR (by omega) ht
    have hptx : PTX (PGADDR d t 0) = t := PTX_PGADDR (by omega) ht
    have hpg' : s'.pgdir e = some pg := by
      rw [hfreeing.quiet.pgdir]
      apply hpg
    have haddr : pteAddr e (PGADDR d t 0) hva = (e, d, ⟨t, ht⟩) := by
      simp only [pteAddr, hpdx, hptx]
    obtain ⟨s2, heq, hedit, hpde2, hinv2⟩ := pageRemove_ok hinv hpg' hva
    rw [Prog.ends_of_eq heq]
    have hfreeing2 := hfreeing.trans (Freeing.of_cleared hedit rfl hpde2)
    use hfreeing2
    constructor
    · apply hinv2
      intro q hq
      have := hfreeing.fits hfits q (Kernel.mem_avail hinv (x := .page e d ⟨t, ht⟩) (by
        rw [Kernel.pteAt, hpdx, hptx] at hq
        apply hq))
      omega
    · constructor
      · intro d' hd'
        rw [hpde2 e d' hd', hpde d' hd']
      · intro t' ht'
        have hptes := congrFun hedit.ptes (e, d, t')
        rw [haddr, Kernel.cleared] at hptes
        change s2.pte e d t' = _ at hptes
        by_cases htt : t' = ⟨t, ht⟩
        · split at hptes
          case isTrue h0 =>
            apply (hpresent (refOf_eq_none.mp h0)).elim
          case isFalse h0 =>
            rw [htt] at hptes ⊢
            rw [Function.update_self] at hptes
            rw [hptes, refOf_zero]
        · have hold : s2.pte e d t' = s'.pte e d t' := by
            split at hptes
            · apply hptes
            · rw [Function.update_of_ne] at hptes
              · apply hptes
              · intro he
                simp only [Prod.mk.injEq, true_and] at he
                apply htt he
          rw [hold]
          apply hnone
          have : t'.val ≠ t := fun h => htt (Fin.ext h)
          omega
  · intro habsent
    rw [Prog.ends_pure]
    use hfreeing, ⟨l', hinv⟩, hpde
    intro t' ht'
    by_cases htt : t'.val = t
    · rw [htt, refOf_eq_none]
      apply not_not.mp habsent
    · apply hnone
      omega

/-- Visiting all entries of a page table leaves it empty. -/
theorem envFreeTable_ok (h : MemInv avail held own l s) (hpg : s.pgdir e = some pg)
    (hpt : refOf (s.pde e d) = some pt) (hfits : s.Fits avail own) :
  ∃ s', envFreeTable pg pt d s = .ok ((), s')
    ∧ TableFreed avail held own e d s NPTENTRIES s'
  := by
  have hloop : (envFreeTable pg pt d).Ends s
      (fun _ s' => TableFreed avail held own e d s NPTENTRIES s') (fun _ => False) := by
    apply Prog.ends_forUp_zero
    · intro t s' ht hs'
      apply envFreeTable_step hpg hpt hfits ht hs'
    · use Freeing.refl held e s, ⟨l, h⟩, fun _ _ => rfl
      intro t' ht'
      omega
  obtain ⟨_, s', heq, hs'⟩ := hloop.returns
  use s', heq

end Table

/-! ### One directory entry -/

section Directory

variable {e : Fin NENV} {pg : Nat}

/-- What the slots refer to after a directory entry with an empty page table is cleared. -/
theorem clearPde_slotRef (h : MemInv avail held own l s) {d : Fin NUPDE}
    (hpg : s.pgdir e = some pg)
    (hnone : ∀ t : Fin NPTENTRIES, refOf (s.pte e d t) = none) :
  (s.setEntry pg d 0).slotRef = Function.update s.slotRef (.table e d) none
  := by
  have hd := d.isLt
  simp only [NUPDE] at hd
  rw [Kernel.setPde_slotRef h hpg hnone, refOf_zero]
  intro t
  rw [Kernel.pte, Kernel.setPde_pde h hpg 0 e (by omega), if_pos ⟨rfl, rfl⟩, refOf_zero]
  apply refOf_zero

/-- Clearing a directory entry with an empty page table. -/
theorem Freeing.clearPde (h : MemInv avail held own l s) {d : Fin NUPDE}
    (hpg : s.pgdir e = some pg)
    (hnone : ∀ t : Fin NPTENTRIES, refOf (s.pte e d t) = none) (pt : Nat) :
  Freeing held e s ((s.setEntry pg d 0).decref pt)
  := by
  have hd := d.isLt
  simp only [NUPDE] at hd
  have hsame := decref_sameTables (s := s.setEntry pg d 0) pt
  obtain ⟨hquiet, hmem⟩ := decref_quiet (s := s.setEntry pg d 0) pt
  have hshrinks : ∀ x, ((s.setEntry pg d 0).decref pt).slotRef x = s.slotRef x
      ∨ ((s.setEntry pg d 0).decref pt).slotRef x = none := by
    intro x
    rw [hsame.slotRef, clearPde_slotRef h hpg hnone]
    by_cases hx : x = .table e d
    · right
      rw [hx, Function.update_self]
    · left
      rw [Function.update_of_ne hx]
  constructor
  case quiet =>
    have hq : Quiet s (s.setEntry pg d 0) := rfl
    apply hq.trans hquiet
  case pde =>
    intro e' he d' hd'
    rw [hsame.pde e' hd', Kernel.setPde_pde h hpg 0 e' hd', if_neg (fun h => he h.1)]
  case pte =>
    intro e' he d' t'
    rw [hsame.pte e' d' t'.isLt, Kernel.setPde_pte_of_ne h hpg 0 e' d' t']
    intro heq
    apply he (Slot.table.inj heq).1
  case upper =>
    intro d' hd1 hd2
    simp only [NUPDE] at hd1
    rw [hsame.pde e hd2, Kernel.setPde_pde h hpg 0 e hd2, if_neg (by omega)]
  case shrinks => apply hshrinks
  case kern =>
    intro d' hd'
    have hk := hsame.entry _ (Or.inl rfl) d' hd'
    apply hk.trans
    apply Kernel.entry_setEntry_of_ne s 0 (by omega) hd'
    left
    apply (Kernel.ne_kernPgdir h (x := .dir e) hpg).symm
  case keeps =>
    intro q hq o ho
    have hqs : s.Shareable held q := by
      obtain hh | ⟨y, hy, hr⟩ := hq
      · left; apply hh
      · right
        use y, hy, shrinks_some hshrinks hr
    have hne : q ≠ pg := by
      rintro rfl
      apply h.not_isTable_of_shareable hqs
      right
      use .dir e, trivial
      apply hpg
    rw [hmem]
    apply Bytes.write32_of_disjoint
    simp only [PGSIZE] at ho ⊢
    omega

/-- Clearing a directory entry with an empty page table and giving up the page table keeps
the invariant. -/
theorem MemInv.clearPde (h : MemInv avail held own l s) {d : Fin NUPDE}
    (hpg : s.pgdir e = some pg) {pt : Nat} (hpt : refOf (s.pde e d) = some pt)
    (hnone : ∀ t : Fin NPTENTRIES, refOf (s.pte e d t) = none)
    (hfits : s.refs pt + own pt ≤ 65535) :
  ∃ l', MemInv avail held own l' ((s.setEntry pg d 0).decref pt)
  := by
  have href := clearPde_slotRef h hpg hnone
  have hx : s.slotRef (.table e d) = some pt := hpt
  have h' := h.detach href (by rfl) (by rfl) (by rfl) (by rfl) hx
  have hr := refs_update href pt
  rw [if_pos hx, if_neg (by simp)] at hr
  obtain ⟨l', h''⟩ := h'.decref (p := pt) (by simp) (by rw [Function.update_self]; omega)
  use l'
  simp only [Function.update_self, Nat.add_sub_cancel, Function.update_idem] at h''
  rw [Function.update_eq_self] at h''
  apply h''

/-- What holds of the state when the first `d` entries of the directory have been visited. -/
def DirFreed (avail held : Finset Nat) (own : Nat → Nat) (e : Fin NENV) (s : Kernel) (d : Nat)
    (s' : Kernel) : Prop :=
  Freeing held e s s' ∧ (∃ l', MemInv avail held own l' s')
    ∧ ∀ d' : Fin NUPDE, d'.val < d → refOf (s'.pde e d') = none

/-- Visiting one directory entry. -/
theorem envFreePde_step (hpg : s.pgdir e = some pg) (hfits : s.Fits avail own) {d : Nat}
    (hd : d < NUPDE) (h : DirFreed avail held own e s d s') :
  (envFreePde pg d).Ends s' (fun _ s'' => DirFreed avail held own e s (d + 1) s'')
    (fun _ => False)
  := by
  obtain ⟨hfreeing, ⟨l', hinv⟩, hnone⟩ := h
  have hd' := hd
  simp only [NUPDE] at hd'
  have hpg' : s'.pgdir e = some pg := by
    rw [hfreeing.quiet.pgdir]
    apply hpg
  have hentry : s'.entry pg d = s'.pde e d := by
    rw [Kernel.pde, hpg']
  rw [envFreePde, Prog.ends_bind, Prog.ends_get, Prog.ends_ite, hentry]
  constructor
  · intro habsent
    rw [Prog.ends_pure]
    use hfreeing, ⟨l', hinv⟩
    intro t ht
    by_cases htd : t.val = d
    · rw [htd, refOf_eq_none]
      apply habsent
    · apply hnone
      omega
  · intro hpresent
    have hpt : refOf (s'.pde e d) = some (ptePage (s'.pde e d)) := refOf_eq_some.mpr ⟨hpresent, rfl⟩
    have hptlt := Kernel.lt_npages hinv (x := .table e ⟨d, hd⟩) hpt
    have hk : PGNUM (PTE_ADDR (s'.pde e d)) = ptePage (s'.pde e d) := rfl
    have hfits' := hfreeing.fits hfits
    obtain ⟨s2, heq2, hfreeing2, ⟨l2, hinv2⟩, hpde2, hnone2⟩ :=
      envFreeTable_ok hinv hpg' (d := ⟨d, hd⟩) hpt hfits'
    have hpg2 : s2.pgdir e = some pg := by
      rw [hfreeing2.quiet.pgdir]
      apply hpg'
    have hpt2 : refOf (s2.pde e d) = some (ptePage (s'.pde e d)) := by
      rw [hpde2 d (by omega)]
      apply hpt
    have hempty2 : ∀ t : Fin NPTENTRIES, refOf (s2.pte e (⟨d, hd⟩ : Fin NUPDE) t) = none :=
      fun t => hnone2 t t.isLt
    have hx : s2.slotRef (.table e ⟨d, hd⟩) = some (ptePage (s'.pde e d)) := hpt2
    have hlink : ((s2.setEntry pg d 0).pages (ptePage (s'.pde e d))).ppLink = none := by
      apply hinv2.unlinked _ (Kernel.mem_avail hinv2 hx) (hinv2.mapped_notMem hx)
    have hfits2 := hfreeing2.fits hfits'
    rw [Prog.ends_bind, Prog.ends_of_eq (KADDR_eq (by omega)), Prog.ends_bind, hk,
      Prog.ends_of_eq heq2, Prog.ends_bind, Prog.ends_modify, Prog.ends_bind,
      Prog.ends_of_eq (pa2page_eq (s := s2.setEntry pg d 0) (by
        rw [show (s2.setEntry pg d 0).npages = s2.npages from rfl, hfreeing2.quiet.npages]
        omega)), hk,
      Prog.ends_of_eq (pageDecref_eq hlink)]
    have hclear := Freeing.clearPde hinv2 hpg2 hempty2 (ptePage (s'.pde e d))
    use (hfreeing.trans hfreeing2).trans hclear
    constructor
    · apply hinv2.clearPde hpg2 (d := ⟨d, hd⟩) hpt2 hempty2
      apply hfits2 _ (Kernel.mem_avail hinv2 hx)
    · intro t ht
      have hsame := decref_sameTables (s := s2.setEntry pg d 0) (ptePage (s'.pde e d))
      have htlt := t.isLt
      simp only [NUPDE] at htlt
      rw [hsame.pde e (by omega), Kernel.setPde_pde hinv2 hpg2 (d := ⟨d, hd⟩) 0 e (by omega)]
      by_cases htd : t.val = d
      · rw [if_pos ⟨rfl, htd⟩, refOf_zero]
      · rw [if_neg (fun h => htd h.2), hpde2 t (by omega)]
        apply hnone
        omega

/-- Visiting the whole directory leaves it empty below `UTOP`. -/
theorem envFreePdes_ok (h : MemInv avail held own l s) (hpg : s.pgdir e = some pg)
    (hfits : s.Fits avail own) :
  ∃ s', Prog.forUp 0 (PDX (BitVec.ofNat 32 UTOP)) (envFreePde pg) s = .ok ((), s')
    ∧ DirFreed avail held own e s NUPDE s'
  := by
  have hloop : (Prog.forUp 0 NUPDE (envFreePde pg)).Ends s
      (fun _ s' => DirFreed avail held own e s NUPDE s') (fun _ => False) := by
    apply Prog.ends_forUp_zero
    · intro d s' hd hs'
      apply envFreePde_step hpg hfits hd hs'
    · use Freeing.refl held e s, ⟨l, h⟩
      intro d' hd'
      omega
  obtain ⟨_, s', heq, hs'⟩ := hloop.returns
  use s'
  rw [PDX_UTOP]
  use heq

end Directory

/-! ### The whole environment -/

/-- From `s` to `s'` the environment `e` was freed. -/
structure Freed (held : Finset Nat) (e : Fin NENV) (s s' : Kernel) : Prop where
  quiet : s' = { s with
    mem := s'.mem
    pages := s'.pages
    pageFreeList := s'.pageFreeList
    envs := Function.update s.envs e { s.envs e with
      envPgdir := none
      envStatus := .ENV_FREE
      envLink := s.envFreeList }
    envFreeList := some e.val }
  pde : ∀ e' : Fin NENV, e' ≠ e → ∀ d < 1024, s'.pde e' d = s.pde e' d
  pte : ∀ e' : Fin NENV, e' ≠ e → ∀ (d : Fin NUPDE) (t : Fin NPTENTRIES),
    s'.pte e' d t = s.pte e' d t
  shrinks : ∀ x, s'.slotRef x = s.slotRef x ∨ s'.slotRef x = none
  kern : ∀ d < 1024, s'.entry s.kernPgdir d = s.entry s.kernPgdir d
  keeps : ∀ q, s'.Shareable held q → ∀ o < PGSIZE, s'.mem (q * PGSIZE + o) = s.mem (q * PGSIZE + o)

/-- Freed environments are put at the head of the list of free environments. -/
theorem EnvInv.free (h : EnvInv fl s) {e : Fin NENV} (hlive : s.Live e)
    (henvs : s'.envs = Function.update s.envs e { s.envs e with
      envPgdir := none
      envStatus := .ENV_FREE
      envLink := s.envFreeList })
    (hlist : s'.envFreeList = some e.val) :
  EnvInv (e.val :: fl) s'
  := by
  have hefl : e.val ∉ fl := fun hm => hlive.2 ((h.mem_free e).mp hm).2
  constructor
  case chain =>
    rw [hlist, henvs]
    constructor
    · rfl
    · simp only [e.isLt, if_true, Function.update_self]
      apply h.chain.congr
      intro e' he'
      split
      case isTrue hlt =>
        rw [Function.update_of_ne]
        rintro rfl
        obtain he' | he' := List.mem_append.mp he'
        · apply hefl he'
        · obtain heq := List.mem_singleton.mp he'
          omega
      case isFalse => rfl
  case nodup =>
    apply List.nodup_cons.mpr
    use hefl, h.nodup
  case mem_free =>
    intro e'
    rw [List.mem_cons, h.mem_free, henvs]
    by_cases he : e' = e
    · rw [he, Function.update_self]
      simp
    · rw [Function.update_of_ne he]
      simp [he]
  case pgdir =>
    intro e' he'
    rw [Kernel.Live, henvs] at he'
    rw [henvs]
    by_cases he : e' = e
    · rw [he, Function.update_self] at he'
      simp at he'
    · rw [Function.update_of_ne he] at he' ⊢
      apply h.pgdir e' he'

/-- Freeing an environment gives up all it refers to. -/
theorem envFree_gives (h : MemInv avail held own l s) {e : Fin NENV} {pg : Nat}
    (henvpg : (s.envs e).envPgdir = some pg) (hpg : s.pgdir e = some pg)
    (hfits : s.Fits avail own) :
  ∃ s' l', envFree e s = .ok ((), s') ∧ Freed held e s s' ∧ MemInv avail held own l' s'
  := by
  obtain ⟨s1, heq1, hfreeing, ⟨l1, hinv1⟩, hnone⟩ := envFreePdes_ok h hpg hfits
  have hpg1 : s1.pgdir e = some pg := by
    rw [hfreeing.quiet.pgdir]
    apply hpg
  have henvs1 := hfreeing.quiet.envs
  -- the environment lets go of its directory
  have hpg2 : (s1.setEnv e { s1.envs e with envPgdir := none }).pgdir e = none := by
    rw [Kernel.setEnv_pgdir]
    simp
  have href2 : (s1.setEnv e { s1.envs e with envPgdir := none }).slotRef
      = Function.update s1.slotRef (.dir e) none := by
    rw [Kernel.setEnv_slotRef, hpg2]
    · intro d
      apply hnone d d.isLt
    · intro d
      rw [Kernel.pde, hpg2]
      apply refOf_zero
  have hx1 : s1.slotRef (.dir e) = some pg := hpg1
  have hinv2 := hinv1.detach href2 (by rfl) (by rfl) (by rfl) (by rfl) hx1
  have hr := refs_update href2 pg
  rw [if_pos hx1, if_neg (by simp)] at hr
  have hfits1 := hfreeing.fits hfits pg (Kernel.mem_avail hinv1 hx1)
  have hlink : ((s1.setEnv e { s1.envs e with envPgdir := none }).pages pg).ppLink = none :=
    hinv1.unlinked pg (Kernel.mem_avail hinv1 hx1) (hinv1.mapped_notMem hx1)
  have hlt := Kernel.lt_npages hinv1 hx1
  have hn := hinv1.npages_le
  have hpa : PGNUM (page2pa pg) = pg := PGNUM_page2pa (by omega)
  obtain ⟨l', hinv3⟩ := hinv2.decref (p := pg) (by simp) (by rw [Function.update_self]; omega)
  simp only [Function.update_self, Nat.add_sub_cancel, Function.update_idem] at hinv3
  rw [Function.update_eq_self] at hinv3
  have hsame := decref_sameTables (s := s1.setEnv e { s1.envs e with envPgdir := none }) pg
  obtain ⟨hquiet, hmem⟩ := decref_quiet (s := s1.setEnv e { s1.envs e with envPgdir := none }) pg
  revert hinv3 hsame hquiet hmem
  generalize hs3 : (s1.setEnv e { s1.envs e with envPgdir := none }).decref pg = s3
  intro hinv3 hsame hquiet hmem
  have henv3 : s3.envs e = { s1.envs e with envPgdir := none } := by
    rw [hquiet.envs]
    simp only [Kernel.setEnv, Function.update_self]
  -- the environment becomes free
  have hpg4 : (s3.setEnv e { s3.envs e with
      envStatus := .ENV_FREE
      envLink := s3.envFreeList }).pgdir e = s3.pgdir e := by
    rw [hsame.pgdir, hpg2, Kernel.setEnv_pgdir]
    simp
  obtain ⟨-, hpde4, hpte4, href4⟩ := Kernel.setEnv_views hpg4
  have hsame5 : (s3.setEnv e { s3.envs e with
      envStatus := .ENV_FREE
      envLink := s3.envFreeList }).SameTables { s3.setEnv e { s3.envs e with
        envStatus := .ENV_FREE
        envLink := s3.envFreeList } with envFreeList := some e.val } :=
    Kernel.SameTables.of_mem rfl rfl rfl
  have hlist3 : s3.envFreeList = s.envFreeList := by
    rw [hquiet.envFreeList]
    apply hfreeing.quiet.envFreeList
  have henvs5 : Function.update s3.envs e { s3.envs e with
        envStatus := .ENV_FREE
        envLink := s3.envFreeList }
      = Function.update s.envs e { s.envs e with
        envPgdir := none
        envStatus := .ENV_FREE
        envLink := s.envFreeList } := by
    rw [henv3, hlist3, hquiet.envs]
    simp only [Kernel.setEnv, Function.update_idem, henvs1]
  have hrefs : ∀ x, Kernel.slotRef { s3.setEnv e { s3.envs e with
      envStatus := .ENV_FREE
      envLink := s3.envFreeList } with envFreeList := some e.val } x
      = if x = .dir e then none else s1.slotRef x := by
    intro x
    rw [hsame5.slotRef, href4, hsame.slotRef, href2]
    by_cases hx : x = .dir e
    · rw [if_pos hx, hx, Function.update_self]
    · rw [if_neg hx, Function.update_of_ne hx]
  have hshrinks : ∀ x, Kernel.slotRef { s3.setEnv e { s3.envs e with
      envStatus := .ENV_FREE
      envLink := s3.envFreeList } with envFreeList := some e.val } x = s.slotRef x
      ∨ Kernel.slotRef { s3.setEnv e { s3.envs e with
      envStatus := .ENV_FREE
      envLink := s3.envFreeList } with envFreeList := some e.val } x = none := by
    intro x
    rw [hrefs]
    by_cases hx : x = .dir e
    · right
      rw [if_pos hx]
    · rw [if_neg hx]
      apply hfreeing.shrinks
  use { s3.setEnv e { s3.envs e with
    envStatus := .ENV_FREE
    envLink := s3.envFreeList } with envFreeList := some e.val }, l'
  constructor
  · rw [envFree, Prog.get_bind, henvpg, Prog.bind_of_eq (show _ = Except.ok (pg, s) from rfl),
      Prog.bind_of_eq heq1, Prog.modify_bind,
      Prog.bind_of_eq (pa2page_eq (by rw [hpa]; apply hlt)), hpa,
      Prog.bind_of_eq (pageDecref_eq hlink), hs3]
    rfl
  · constructor
    · constructor
      case quiet =>
        simp only [Kernel.setEnv, henvs5]
        rw [hquiet, hfreeing.quiet]
        rfl
      case pde =>
        intro e' he d hd
        rw [hsame5.pde e' hd, hpde4, hsame.pde e' hd, Kernel.pde,
          Kernel.setEnv_pgdir_of_ne _ (fun h => he (Fin.ext h))]
        apply hfreeing.pde e' he d hd
      case pte =>
        intro e' he d t
        rw [hsame5.pte e' d t.isLt, hpte4, hsame.pte e' d t.isLt, Kernel.pte, Kernel.pde,
          Kernel.setEnv_pgdir_of_ne _ (fun h => he (Fin.ext h))]
        apply hfreeing.pte e' he d t
      case shrinks => apply hshrinks
      case kern =>
        intro d hd
        rw [← hfreeing.kern d hd]
        have hk := hsame.entry _ (Or.inl rfl) d hd
        simp only [Kernel.setEnv, hfreeing.quiet.kernPgdir] at hk
        apply hk
      case keeps =>
        intro q hq o ho
        have hq1 : s1.Shareable held q := by
          obtain hh | ⟨y, hy, hr⟩ := hq
          · left; apply hh
          · right
            use y, hy
            rw [hrefs, if_neg (by rintro rfl; apply hy trivial)] at hr
            apply hr
        rw [← hfreeing.keeps q hq1 o ho]
        apply congrFun hmem
    · apply (hinv3.setEnv hpg4).same_tables hsame5 (by rfl) (by rfl) (by rfl)

theorem Freed.envs {e : Fin NENV} (h : Freed held e s s') :
  s'.envs = Function.update s.envs e { s.envs e with
    envPgdir := none
    envStatus := .ENV_FREE
    envLink := s.envFreeList }
  := by rw [h.quiet]

/-- Freeing a live environment gives up all it refers to and keeps the invariants. -/
theorem envFree_ok (h : MemInv avail held own l s) (hi : EnvInv fl s) {e : Fin NENV}
    (hlive : s.Live e) (hfits : s.Fits avail own) :
  ∃ s' l', envFree e s = .ok ((), s') ∧ Freed held e s s' ∧ MemInv avail held own l' s'
    ∧ EnvInv (e.val :: fl) s'
  := by
  obtain ⟨pg, henvpg, hpg⟩ := hlive.pgdir hi
  obtain ⟨s', l', heq, hfreed, hmem⟩ := envFree_gives h henvpg hpg hfits
  use s', l', heq, hfreed, hmem
  have hlist : s'.envFreeList = some e.val := by rw [hfreed.quiet]
  apply hi.free hlive hfreed.envs hlist

end Jos
