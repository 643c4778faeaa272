import Jos.Kern.Apart
import Jos.Root.Pmap

/-!
# Mapping and unmapping pages

The functions on page tables follow those of the kernel in `Working/lab`, so that what is known
of the latter carries over.  Inserting a page also sets flags in the directory entry of its page
table, which changes neither what the entry refers to nor who may be referred to.
-/

namespace Jos

namespace Root

open Bytes Prog

variable {avail held : Finset Nat} {own : Nat → Nat} {l : List Nat} {s s' s'' : Kernel}

/-! ### What the other kernel does -/

theorem pageAlloc_one :
  pageAlloc 1 = Jos.pageAlloc
  := by
  funext s
  rw [pageAlloc, Jos.pageAlloc, get_bind, get_bind]
  cases s.pageFreeList with
  | none => rfl
  | some p =>
      simp only [if_pos (show (1 : Nat) ≠ 0 by decide)]

theorem pageFree_follows (pp : Nat) :
  (pageFree pp).Follows (Jos.pageFree pp)
  := by
  intro s
  rw [Jos.pageFree, get_bind]
  by_cases href : (s.pages pp).ppRef ≠ 0
  · rw [if_pos href]
    exact follows_panic _ _ s
  · by_cases hlink : (s.pages pp).ppLink ≠ none
    · rw [if_neg href, if_pos hlink]
      exact follows_panic _ _ s
    · rw [if_neg href, if_neg hlink]
      exact follows_refl (pageFree pp) s

theorem pageDecref_follows (pp : Nat) :
  (pageDecref pp).Follows (Jos.pageDecref pp)
  := by
  apply follows_bind (follows_refl _)
  intro _
  apply follows_bind (follows_refl _)
  intro s
  apply follows_ite
  · exact fun _ => pageFree_follows pp
  · exact fun _ => follows_refl _

theorem pgdirWalk_eq (pgdir : Nat) (va : Word) (create : Bool) :
  pgdirWalk pgdir va create = Jos.pgdirWalk pgdir va create
  := by
  have hentry : ∀ p, page2pa p ||| PTE_P ||| PTE_U ||| PTE_W = tableEntry p := by
    intro p
    rw [tableEntry, BitVec.or_assoc, BitVec.or_comm PTE_U, ← BitVec.or_assoc]
  have hpa : ∀ p, PGNUM (PTE_ADDR (tableEntry p)) = PGNUM (page2pa p) := by
    intro p
    have hmask : PTE_ADDR (tableEntry p) = page2pa p &&& ~~~ 0xFFF := by
      rw [PTE_ADDR, tableEntry, BitVec.and_or_distrib_right, BitVec.and_or_distrib_right,
        BitVec.and_or_distrib_right]
      simp [PTE_P, PTE_W, PTE_U]
    have hlow : ∀ i < 32, (0xFFF : Word).getLsbD i = decide (i < 12) := by decide
    have hshift : (page2pa p &&& ~~~ 0xFFF) >>> 12 = page2pa p >>> 12 := shiftRight_clear_low hlow
    rw [hmask, PGNUM, PGNUM, PTXSHIFT, hshift]
  have hkaddr : ∀ p, KADDR (PTE_ADDR (tableEntry p)) = KADDR (page2pa p) := by
    intro p
    rw [KADDR, KADDR, hpa]
  funext s
  rw [pgdirWalk, Jos.pgdirWalk, get_bind, get_bind]
  by_cases hp : s.entry pgdir (PDX va) &&& PTE_P = 0
  · cases create with
    | false => rw [if_pos ⟨rfl, hp⟩, if_pos hp, if_pos rfl]
    | true =>
        rw [if_neg (by simp), if_pos ⟨rfl, hp⟩, if_pos hp, if_neg (by simp), pageAlloc_one]
        simp only [hentry, hkaddr]
        apply congrFun
        apply congrArg
        funext o
        cases o with
        | none => rfl
        | some p => rfl
  · rw [if_neg (fun h => hp h.2), if_neg (fun h => hp h.2), if_neg hp]

theorem pageLookup_eq (pgdir : Nat) (va : Word) :
  pageLookup pgdir va = Jos.pageLookup pgdir va
  := by
  rw [pageLookup, pgdirWalk_eq]
  rfl

theorem pageRemove_follows (pgdir : Nat) (va : Word) :
  (pageRemove pgdir va).Follows (Jos.pageRemove pgdir va)
  := by
  rw [pageRemove, pageLookup_eq]
  apply follows_bind (follows_refl _)
  intro r
  cases r with
  | none => apply follows_refl
  | some r => exact follows_bind (pageDecref_follows r.1) (fun _ => follows_refl _)

/-! ### Flags of directory entries -/

/-- The kernel after the flags `perm` are set in a directory entry. -/
def flagPde (s : Kernel) (pgdir d : Nat) (perm : Word) : Kernel :=
  s.setEntry pgdir d (s.entry pgdir d ||| perm)

/-- Inserting a page does what the other kernel does, and sets flags in the directory entry. -/
theorem pageInsert_of_lab {pgdir pp : Nat} {va perm : Word} {r : Word}
    (h : Jos.pageInsert pgdir pp va perm s = .ok (r, s')) :
  (r = 0 ∧ pageInsert pgdir pp va perm s = .ok (0, flagPde s' pgdir (PDX va) perm)) ∨
    (r = -E_NO_MEM ∧ pageInsert pgdir pp va perm s = .ok (-E_NO_MEM, s'))
  := by
  have hword : page2pa pp ||| PTE_P ||| perm = page2pa pp ||| perm ||| PTE_P := by
    rw [BitVec.or_assoc, BitVec.or_comm PTE_P, ← BitVec.or_assoc]
  rw [pageInsert, pgdirWalk_eq, hword]
  rw [Jos.pageInsert] at h
  cases hwalk : Jos.pgdirWalk pgdir va true s with
  | error e =>
      simp only [bind, StateT.bind, Except.bind, hwalk] at h
      cases h
  | ok o =>
      obtain ⟨o, s1⟩ := o
      rw [bind_of_eq hwalk] at h ⊢
      cases o with
      | none =>
          right
          obtain ⟨rfl, rfl⟩ := ok_inj (m := (pure (-E_NO_MEM) : Prog Kernel Word)) rfl h
          exact ⟨rfl, rfl⟩
      | some pt =>
          left
          simp only [get_bind] at h ⊢
          by_cases hp : s1.entry pt.1 pt.2 &&& PTE_P = 0
          · rw [if_pos hp, modify_bind, bind_of_eq (pageIncref_eq pp)] at h
            obtain ⟨rfl, rfl⟩ := ok_inj (m := (pure 0 : Prog Kernel Word)) rfl h
            use rfl
            rw [bind_of_eq (pageIncref_eq pp), get_bind,
              if_neg (show ¬ (s1.incref pp).entry pt.1 pt.2 &&& PTE_P ≠ 0 from not_not.mpr hp)]
            rfl
          · rw [if_neg hp, bind_of_eq (pageIncref_eq pp)] at h
            rw [bind_of_eq (pageIncref_eq pp), get_bind,
              if_pos (show (s1.incref pp).entry pt.1 pt.2 &&& PTE_P ≠ 0 from hp)]
            cases hrem : Jos.pageRemove pgdir va (s1.incref pp) with
            | error e =>
                simp only [bind, StateT.bind, Except.bind, hrem] at h
                cases h
            | ok u =>
                obtain ⟨u, s2⟩ := u
                rw [bind_of_eq hrem, modify_bind] at h
                obtain ⟨rfl, rfl⟩ := ok_inj (m := (pure 0 : Prog Kernel Word)) rfl h
                use rfl
                rw [bind_of_eq ((pageRemove_follows pgdir va).ok hrem)]
                rfl

/-- Permissions do not change which page an entry refers to. -/
theorem refOf_or {w perm : Word} {p : Nat} (hw : refOf w = some p) (hperm : perm.toNat < 4096) :
  refOf (w ||| perm) = some p
  := by
  obtain ⟨hp, hpage⟩ := refOf_eq_some.mp hw
  apply refOf_eq_some.mpr
  constructor
  · intro hzero
    rw [BitVec.and_or_distrib_right] at hzero
    exact hp (BitVec.or_eq_zero_iff.mp hzero).1
  · have hlow : perm.toNat >>> 12 = 0 := by
      rw [Nat.shiftRight_eq_div_pow]
      omega
    rw [ptePage_eq, BitVec.toNat_or, ← Nat.shiftRight_eq_div_pow _ 12, Nat.shiftRight_or_distrib,
      hlow, Nat.or_zero, Nat.shiftRight_eq_div_pow, ← ptePage_eq, hpage]

/-- A directory entry that is present lets environments read and write, as far as the entries of
the page table do. -/
def TableFlags (w : Word) : Prop :=
  refOf w ≠ none → w &&& (PTE_W ||| PTE_U) = PTE_W ||| PTE_U

theorem tableFlags_zero :
  TableFlags 0
  := by
  intro h
  rw [refOf_zero] at h
  exact (h rfl).elim

theorem TableFlags.or {w : Word} (h : TableFlags w) (hw : refOf w ≠ none) (perm : Word) :
  TableFlags (w ||| perm)
  := by
  intro _
  rw [BitVec.and_or_distrib_right, h hw]
  apply BitVec.eq_of_getLsbD_eq
  intro i _
  simp only [BitVec.getLsbD_or, BitVec.getLsbD_and]
  cases (PTE_W ||| PTE_U).getLsbD i with
  | false => simp
  | true => simp

theorem tableFlags_tableEntry (p : Nat) :
  TableFlags (tableEntry p)
  := by
  intro _
  have hflags : (PTE_P ||| PTE_W ||| PTE_U) &&& (PTE_W ||| PTE_U) = PTE_W ||| PTE_U := by decide
  rw [tableEntry, BitVec.or_assoc, BitVec.or_assoc, ← BitVec.or_assoc PTE_P,
    BitVec.and_or_distrib_right, hflags]
  apply BitVec.eq_of_getLsbD_eq
  intro i _
  simp only [BitVec.getLsbD_or, BitVec.getLsbD_and]
  cases (PTE_W ||| PTE_U).getLsbD i with
  | false => simp
  | true => simp

/-- The change from `s` to `s'` of page table entries to `f`. Directory entries below `UTOP` may
have got flags, or page tables. -/
structure Edit (held : Finset Nat) (s s' : Kernel) (f : PteAddr → Word) : Prop where
  quiet : Quiet s s'
  ptes : s'.ptes = f
  pde : ∀ (e : Fin NENV) (d : Fin NUPDE), TableFlags (s.pde e d) → TableFlags (s'.pde e d)
  upper : ∀ (e : Fin NENV) d, NUPDE ≤ d → d < 1024 → s'.pde e d = s.pde e d
  kern : ∀ d < 1024, s'.entry s.kernPgdir d = s.entry s.kernPgdir d
  keeps : ∀ q, s.Shareable held q → ∀ o < PGSIZE, s'.mem (q * PGSIZE + o) = s.mem (q * PGSIZE + o)

theorem Edit.of_lab {f : PteAddr → Word} (h : Jos.Edit held s s' f) :
  Edit held s s' f
  := by
  constructor
  case quiet => exact h.quiet
  case ptes => exact h.ptes
  case pde =>
    intro e d hs
    obtain heq | ⟨-, p, -, heq⟩ := h.pde e d
    · rw [heq]
      exact hs
    · rw [heq]
      exact tableFlags_tableEntry p
  case upper => exact h.upper
  case kern => exact h.kern
  case keeps => exact h.keeps

theorem Edit.refl (s : Kernel) :
  Edit held s s s.ptes
  := .of_lab (Jos.Edit.refl s)

section FlagPde

variable (h : MemInv avail held own l s) {e : Fin NENV} {d : Fin NUPDE} {pg pt : Nat}
  (hpg : s.pgdir e = some pg) (hpt : refOf (s.pde e d) = some pt) {perm : Word}
  (hperm : perm.toNat < 4096)
include h hpg hpt hperm

theorem flagPde_refOf (e' : Fin NENV) {d' : Nat} (hd' : d' < 1024) :
  refOf ((flagPde s pg d perm).pde e' d') = refOf (s.pde e' d')
  := by
  rw [flagPde, Kernel.setPde_pde h hpg _ e' hd']
  split
  case isTrue heq =>
    obtain ⟨rfl, rfl⟩ := heq
    rw [Kernel.pde, hpg] at hpt ⊢
    rw [refOf_or hpt hperm]
    exact hpt.symm
  case isFalse => rfl

/-- The entries of page tables are not in directories. -/
theorem flagPde_pte (e' : Fin NENV) (d' : Fin NUPDE) (t' : Fin NPTENTRIES) :
  (flagPde s pg d perm).pte e' d' t' = s.pte e' d' t'
  := by
  have hd := d.isLt
  have hd' := d'.isLt
  simp only [NUPDE] at hd hd'
  rw [Kernel.pte, Kernel.pte, flagPde_refOf h hpg hpt hperm e' (by omega)]
  cases hpt' : refOf (s.pde e' d') with
  | none => rfl
  | some pt' =>
      apply Kernel.entry_setEntry_of_ne _ _ (by omega) t'.isLt
      left
      exact Kernel.ref_ne_of_owns h (x := .dir e) (y := .table e' d') hpg trivial hpt' (by simp)

omit hpt hperm in
theorem flagPde_kern {d' : Nat} (hd' : d' < 1024) :
  (flagPde s pg d perm).entry s.kernPgdir d' = s.entry s.kernPgdir d'
  := by
  have hd := d.isLt
  simp only [NUPDE] at hd
  apply Kernel.entry_setEntry_of_ne _ _ (by omega) hd'
  left
  exact (Kernel.ne_kernPgdir h (x := .dir e) hpg).symm

theorem flagPde_slotRef :
  (flagPde s pg d perm).slotRef = s.slotRef
  := by
  funext x
  cases x with
  | dir e' => rfl
  | table e' d' =>
      have hd' := d'.isLt
      simp only [NUPDE] at hd'
      exact flagPde_refOf h hpg hpt hperm e' (by omega)
  | page e' d' t' =>
      rw [Kernel.slotRef, Kernel.slotRef, flagPde_pte h hpg hpt hperm]
  | kern d' =>
      have hk : (flagPde s pg d perm).kernPgdir = s.kernPgdir := rfl
      rw [Kernel.slotRef, Kernel.slotRef, hk, flagPde_kern h hpg d'.isLt]

/-- Setting flags in a directory entry keeps the invariant. -/
theorem flagPde_memInv :
  MemInv avail held own l (flagPde s pg d perm)
  := by
  have hb : ((flagPde s pg d perm).store l held own).Balanced slots avail Slot.Owns 65536 := by
    rw [Kernel.store, flagPde_slotRef h hpg hpt hperm]
    exact h.balanced
  exact h.of_store rfl rfl rfl rfl hb

/-- Setting flags in a directory entry after an edit. -/
theorem edit_flagPde {s0 : Kernel} {f : PteAddr → Word} {own0 : Nat → Nat} {l0 : List Nat}
    {held0 : Finset Nat} (hedit : Edit held0 s0 s f) (h0 : MemInv avail held0 own0 l0 s0) :
  Edit held0 s0 (flagPde s pg d perm) f
  := by
  have hd := d.isLt
  simp only [NUPDE] at hd
  constructor
  case quiet =>
    have hq : Quiet s (Root.flagPde s pg d perm) := rfl
    exact hedit.quiet.trans hq
  case ptes =>
    rw [← hedit.ptes]
    funext a
    exact flagPde_pte h hpg hpt hperm a.1 a.2.1 a.2.2
  case pde =>
    intro e' d' hs
    have hs' := hedit.pde e' d' hs
    have hlt := d'.isLt
    simp only [NUPDE] at hlt
    rw [Root.flagPde, Kernel.setPde_pde h hpg _ e' (by omega)]
    split
    case isTrue heq =>
      obtain ⟨rfl, hdd⟩ := heq
      have hentry : s.entry pg d = s.pde e' d := by rw [Kernel.pde, hpg]
      rw [hentry]
      rw [hdd] at hs'
      exact hs'.or (by rw [hpt]; simp) perm
    case isFalse => exact hs'
  case upper =>
    intro e' d' hd1 hd2
    simp only [NUPDE] at hd1
    rw [Root.flagPde, Kernel.setPde_pde h hpg _ e' hd2, if_neg (by omega)]
    exact hedit.upper e' d' hd1 hd2
  case kern =>
    intro d' hd'
    have hk : (flagPde s pg d perm).entry s.kernPgdir d' = s.entry s.kernPgdir d' :=
      flagPde_kern h hpg hd'
    rw [hedit.quiet.kernPgdir] at hk
    rw [hk, hedit.kern d' hd']
  case keeps =>
    intro q hq o ho
    rw [← hedit.keeps q hq o ho]
    apply write32_of_disjoint
    have hne : q ≠ pg := by
      rintro rfl
      apply h0.not_isTable_of_shareable hq
      right
      use .dir e, trivial
      rw [Kernel.slotRef, ← hedit.quiet.pgdir]
      exact hpg
    simp only [PGSIZE] at ho ⊢
    omega

end FlagPde

/-! ### Inserting and removing -/

/-- The directories of environments are as they were, but for the entry `d` of that of `e`, which
may have got flags or a page table. -/
structure TablesKept (e : Fin NENV) (d : Nat) (s s' : Kernel) : Prop where
  others : ∀ (e' : Fin NENV) d', d' < 1024 → e' ≠ e ∨ d' ≠ d → s'.pde e' d' = s.pde e' d'
  table : ∀ q, refOf (s.pde e d) = some q → refOf (s'.pde e d) = some q

namespace TablesKept

variable {e : Fin NENV} {d : Nat}

theorem trans (h : TablesKept e d s s') (h' : TablesKept e d s' s'') :
  TablesKept e d s s''
  := by
  constructor
  case others =>
    intro e' d' hd' hne
    rw [h'.others e' d' hd' hne, h.others e' d' hd' hne]
  case table =>
    intro q hq
    exact h'.table q (h.table q hq)

theorem sameTables (e : Fin NENV) (hd : d < 1024) (h : s.SameTables s') :
  TablesKept e d s s'
  := by
  constructor
  case others => exact fun e' _ hd' _ => h.pde e' hd'
  case table =>
    intro q hq
    rw [h.pde e hd]
    exact hq

end TablesKept

/-- Inserting a mappable page sets the entry to the page and keeps the invariant. It fails,
without an effect, only if a page table is needed and no page is free. -/
theorem pageInsert_ok {e : Fin NENV} {pg pp : Nat} {va perm : Word} (h : MemInv avail held own l s)
    (hpg : s.pgdir e = some pg) (hva : va.toNat < UTOP) (hs : s.Mappable avail l pp)
    (hperm : perm.toNat < 4096) (hfits : s.Fits avail own) :
  (pageInsert pg pp va perm s = .ok (-E_NO_MEM, s) ∧ l = [] ∧ refOf (s.pde e (PDX va)) = none) ∨
  (∃ s' l', pageInsert pg pp va perm s = .ok (0, s')
    ∧ Edit held s s' (Function.update s.ptes (pteAddr e va hva) (page2pa pp ||| perm ||| PTE_P))
    ∧ MemInv avail (held.erase pp) own l' s' ∧ TablesKept e (PDX va) s s')
  := by
  obtain ⟨heq, hl, hnone⟩ | ⟨s1, heq, hedit, hinv⟩ := Jos.pageInsert_ok h hpg hva hs perm
  · left
    obtain ⟨h0, -⟩ | ⟨-, heq'⟩ := pageInsert_of_lab heq
    · cases h0
    · exact ⟨heq', hl, hnone⟩
  · right
    obtain ⟨-, heq'⟩ | ⟨h0, -⟩ := pageInsert_of_lab heq
    · obtain ⟨l1, h1⟩ := hinv hperm hfits
      have hpg1 : s1.pgdir e = some pg := by
        rw [hedit.quiet.pgdir]
        exact hpg
      -- the entry is present, so its page table exists
      obtain ⟨pt, hpt⟩ : ∃ pt, refOf (s1.pde e (PDX va)) = some pt := by
        have hpte := congrFun hedit.ptes (pteAddr e va hva)
        rw [Function.update_self, ptes_pteAddr, Kernel.pteAt, Kernel.pte] at hpte
        cases hpt : refOf (s1.pde e (PDX va)) with
        | some pt => use pt
        | none =>
            have hn := h.npages_le
            have hlt := h.avail_lt pp hs.1
            have hmk := refOf_mk (p := pp) (by omega) hperm
            rw [hpt] at hpte
            rw [← hpte, refOf_zero] at hmk
            cases hmk
      use flagPde s1 pg (PDX va) perm, l1, heq'
      constructor
      · exact edit_flagPde h1 hpg1 (d := ⟨PDX va, PDX_lt_of_lt_UTOP hva⟩) hpt hperm (.of_lab hedit) h
      · constructor
        · exact flagPde_memInv h1 hpg1 (d := ⟨PDX va, PDX_lt_of_lt_UTOP hva⟩) hpt hperm
        · have hkept := (pageInsert_kept h hpg hva pp perm).of_eq heq
          have hd := PDX_lt_of_lt_UTOP hva
          constructor
          case others =>
            intro e' d' hd' hne
            rw [flagPde, Kernel.setPde_pde h1 hpg1 (d := ⟨PDX va, hd⟩) _ e' hd',
              if_neg (by rintro ⟨rfl, rfl⟩; simp at hne)]
            obtain he | hdd := hne
            · exact hkept.pde he (hedit.quiet.pgdir e') hd'
            · by_cases he : e' = e
              · rw [he, Kernel.pde, Kernel.pde, hpg1, hpg]
                exact hkept pg d' hd' (.dir (show s.slotRef (.dir e) = some pg from hpg) hdd)
              · exact hkept.pde he (hedit.quiet.pgdir e') hd'
          case table =>
            intro q hq
            rw [flagPde_refOf h1 hpg1 (d := ⟨PDX va, hd⟩) hpt hperm e (PDX_lt va)]
            obtain heq' | ⟨hnone, -⟩ := hedit.pde e ⟨PDX va, hd⟩
            · rw [heq']
              exact hq
            · rw [hnone] at hq
              cases hq
    · cases h0

/-- Inserting a page writes to the directory, to the page table and to the first free page only. -/
theorem pageInsert_frame {e : Fin NENV} {pg pp : Nat} {va perm r : Word}
    (h : MemInv avail held own l s) (hpg : s.pgdir e = some pg) (hva : va.toNat < UTOP)
    (hs : s.Mappable avail l pp) (heq : pageInsert pg pp va perm s = .ok (r, s')) {q i : Nat}
    (hi : i < 1024) (hdir : q ≠ pg) (htable : refOf (s.pde e (PDX va)) ≠ some q)
    (hfree : s.pageFreeList ≠ some q) :
  s'.entry q i = s.entry q i
  := by
  have hspared : Spared pg va q i s := by
    constructor
    case lt => exact hi
    case dir => exact fun hq => (hdir hq).elim
    case table =>
      intro hq
      rw [Kernel.pde, hpg] at htable
      exact (htable hq).elim
    case free =>
      intro q' hq'
      have hmem : q' ∈ avail := by
        cases l with
        | nil =>
            rw [h.pageFreeList_eq_none.mpr rfl] at hq'
            cases hq'
        | cons p l =>
            have hhead := h.chain.1
            rw [hq'] at hhead
            obtain rfl := Option.some.inj hhead
            exact (h.refs_free List.mem_cons_self).1
      have hlt := h.avail_lt q' hmem
      have hn := h.npages_le
      refine ⟨by omega, ?_⟩
      rintro rfl
      exact hfree hq'
  obtain ⟨hlab, -⟩ | ⟨s1, hlab, -⟩ := Jos.pageInsert_ok h hpg hva hs perm
  · obtain ⟨h0, -⟩ | ⟨-, heq'⟩ := pageInsert_of_lab hlab
    · cases h0
    · obtain ⟨-, rfl⟩ := ok_inj heq heq'
      rfl
  · obtain ⟨-, heq'⟩ | ⟨h0, -⟩ := pageInsert_of_lab hlab
    · obtain ⟨-, rfl⟩ := ok_inj heq heq'
      rw [flagPde, Kernel.entry_setEntry_of_ne _ _ (PDX_lt va) hi (Or.inl hdir)]
      exact (pageInsert_spared pp perm hspared).of_eq hlab
    · cases h0

/-- Removing a mapping clears the entry, and keeps the invariant. -/
theorem pageRemove_ok {e : Fin NENV} {pg : Nat} {va : Word} (h : MemInv avail held own l s)
    (hpg : s.pgdir e = some pg) (hva : va.toNat < UTOP) (hfits : s.Fits avail own) :
  ∃ s' l', pageRemove pg va s = .ok ((), s') ∧ Edit held s s' (s.cleared (pteAddr e va hva))
    ∧ MemInv avail held own l' s'
    ∧ ∀ (e' : Fin NENV) d, d < 1024 → s'.pde e' d = s.pde e' d
  := by
  obtain ⟨s', heq, hedit, hpde, hinv⟩ := Jos.pageRemove_ok h hpg hva
  obtain ⟨l', hl'⟩ := hinv (by
    intro q hq
    have hx : s.slotRef (.page e ⟨PDX va, PDX_lt_of_lt_UTOP hva⟩ ⟨PTX va, PTX_lt va⟩) = some q := hq
    have := hfits q (Kernel.mem_avail h hx)
    omega)
  exact ⟨s', l', (pageRemove_follows pg va).ok heq, .of_lab hedit, hl', hpde⟩

end Root

end Jos
