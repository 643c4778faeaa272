import Jos.Root.Sched
import Jos.Root.Syscall

/-!
# The system calls that map pages

What `sys_page_alloc`, `sys_page_map`, `sys_page_unmap` and `sys_ipc_try_send` of the kernel in
`kern/` do in a well-formed kernel.  A call that fails edits no page table entry, and one that
succeeds edits a single one, from which it can be seen where the page came from.
-/

namespace Jos

namespace Root

open Bytes Prog

variable {avail held : Finset Nat} {own : Nat → Nat} {l fl : List Nat} {s s' s'' : Kernel}

/-- Whether permissions may be asked for in a system call. -/
def SyscallPerm (perm : Word) : Prop :=
  perm &&& (PTE_U ||| PTE_P) = PTE_U ||| PTE_P ∧ perm &&& ~~~ PTE_SYSCALL = 0

theorem SyscallPerm.lt {perm : Word} (h : SyscallPerm perm) :
  perm.toNat < 4096
  := perm_lt h.2

theorem SyscallPerm.user {perm : Word} (h : SyscallPerm perm) :
  perm &&& PTE_U = PTE_U
  := by
  have hand : PTE_U = (PTE_U ||| PTE_P) &&& PTE_U := by decide
  rw [hand, ← BitVec.and_assoc, h.1]

/-- The entry made for a page with permissions for environments. -/
theorem pageFlags_mk {perm : Word} (h : perm &&& PTE_U = PTE_U) (p : Nat) :
  PageFlags (page2pa p ||| perm ||| PTE_P)
  := by
  intro _
  rw [BitVec.and_or_distrib_right, BitVec.and_or_distrib_right, h]
  apply BitVec.eq_of_getLsbD_eq
  intro i _
  simp only [BitVec.getLsbD_or, BitVec.getLsbD_and]
  cases PTE_U.getLsbD i with
  | false => simp
  | true => simp

/-- The flag `PTE_W` is a single bit. -/
theorem and_PTE_W_of_ne_zero {w : Word} (h : w &&& PTE_W ≠ 0) :
  w &&& PTE_W = PTE_W
  := by
  have hbit : PTE_W = BitVec.twoPow 32 1 := by decide
  rw [hbit, BitVec.and_twoPow] at h ⊢
  split
  case isTrue => rfl
  case isFalse hw =>
    rw [if_neg hw] at h
    exact (h rfl).elim

/-! ### Edits after edits -/

/-- Which pages may be mapped depends on the page table entries only. -/
theorem shareable_of_ptes (h : s'.ptes = s.ptes) {q : Nat} :
  s'.Shareable held q ↔ s.Shareable held q
  := by
  have hy : ∀ y, ¬ Slot.Owns y → s'.slotRef y = s.slotRef y := by
    intro y hy
    cases y with
    | dir e => apply (hy trivial).elim
    | table e d => apply (hy trivial).elim
    | page e d t =>
        have hpte := congrFun h (e, d, t)
        simp only [Kernel.ptes] at hpte
        rw [Kernel.slotRef, Kernel.slotRef, hpte]
    | kern d => apply (hy trivial).elim
  simp only [Kernel.Shareable]
  constructor
  · rintro (hh | ⟨y, hy', hr⟩)
    · left; apply hh
    · right; use y, hy'; rw [← hy y hy']; apply hr
  · rintro (hh | ⟨y, hy', hr⟩)
    · left; apply hh
    · right; use y, hy'; rw [hy y hy']; apply hr

/-- An edit after a change that edits no entry. -/
theorem Edit.trans {f : PteAddr → Word} (h : Edit held s s' s.ptes) (h' : Edit held s' s'' f) :
  Edit held s s'' f
  := by
  constructor
  case quiet => apply h.quiet.trans h'.quiet
  case ptes => apply h'.ptes
  case pde => exact fun e d hs => h'.pde e d (h.pde e d hs)
  case upper =>
    intro e d hd hd'
    rw [h'.upper e d hd hd', h.upper e d hd hd']
  case kern =>
    intro d hd
    have hk := h'.kern d hd
    rw [h.quiet.kernPgdir] at hk
    rw [hk, h.kern d hd]
  case keeps =>
    intro q hq o ho
    rw [h'.keeps q ((shareable_of_ptes h.ptes).mpr hq) o ho, h.keeps q hq o ho]

theorem Edit.mono {held' : Finset Nat} {f : PteAddr → Word} (h : Edit held' s s' f)
    (hsub : held ⊆ held') :
  Edit held s s' f
  := by
  constructor
  case quiet => apply h.quiet
  case ptes => apply h.ptes
  case pde => apply h.pde
  case upper => apply h.upper
  case kern => apply h.kern
  case keeps =>
    intro q hq
    apply h.keeps q
    obtain hh | hy := hq
    · left; apply hsub hh
    · right; apply hy

/-- Setting an entry keeps the flags of entries. -/
theorem pageFlags_update {f : PteAddr → Word} (h : ∀ a, PageFlags (f a)) {a : PteAddr} {w : Word}
    (hw : PageFlags w) (a' : PteAddr) :
  PageFlags (Function.update f a w a')
  := by
  by_cases ha : a' = a
  · rw [ha, Function.update_self]
    exact hw
  · rw [Function.update_of_ne ha]
    exact h a'

/-- Clearing an entry keeps the flags of entries. -/
theorem pageFlags_cleared (h : ∀ a, PageFlags (s.ptes a)) (a a' : PteAddr) :
  PageFlags (s.cleared a a')
  := by
  rw [Kernel.cleared]
  split
  · exact h a'
  · exact pageFlags_update h pageFlags_zero a'

/-! ### Inserting -/

/-- Inserting a page that is held or mapped already maps it, or fails without an effect. -/
theorem Wf.insert {e : Fin NENV} {pg pp : Nat} {va perm : Word} (h : Wf avail held s)
    (hpg : s.pgdir e = some pg) (hva : va.toNat < UTOP) (hpp : s.Shareable held pp)
    (hperm : perm.toNat < 4096) (huser : perm &&& PTE_U = PTE_U) (hfits : Fits avail s) :
  (pageInsert pg pp va perm).MayEnd s (fun r s' => (r = -E_NO_MEM ∧ s' = s) ∨
    (r = 0 ∧ Wf avail (held.erase pp) s' ∧ TablesKept e (PDX va) s s' ∧
      Edit held s s' (Function.update s.ptes (pteAddr e va hva) (page2pa pp ||| perm ||| PTE_P))))
    (fun _ => False)
  := by
  obtain ⟨l, hl⟩ := h.mem
  obtain ⟨heq, -⟩ | ⟨s', l', heq, hedit, hl', ho⟩ :=
    pageInsert_ok hl hpg hva (hl.shareable hpp) hperm hfits
  · apply mayEnd_intro
    · intro r t ht
      obtain ⟨rfl, rfl⟩ := ok_inj heq ht
      exact Or.inl ⟨rfl, rfl⟩
    · intro t ht
      rw [heq] at ht
      cases ht
  · apply mayEnd_intro
    · intro r t ht
      obtain ⟨rfl, rfl⟩ := ok_inj heq ht
      refine Or.inr ⟨rfl, h.edit hedit ?_ ⟨l', hl'⟩, ho, hedit⟩
      exact pageFlags_update h.user.page (pageFlags_mk huser pp)
    · intro t ht
      rw [heq] at ht
      cases ht

/-- A mapped page is not held. -/
theorem Wf.mapped_notHeld (h : Wf avail held s) {e : Fin NENV} {va : Word}
    (hva : va.toNat < UTOP) {p : Nat} (hp : refOf (s.pteAt e va) = some p) :
  p ∉ held
  := by
  obtain ⟨l, hl⟩ := h.mem
  exact hl.mapped_notHeld hva hp

/-! ### The system calls on pages -/

/-- What `sys_page_alloc` has done when it returns `r`: edit nothing and return an error, or map
a cleared page that was free. -/
def PageAllocDone (held : Finset Nat) (cur : Nat) (envid va perm : Word) (s : Kernel) (r : Word)
    (s' : Kernel) : Prop :=
  (r ≠ 0 ∧ Edit held s s' s.ptes ∧ ∀ (e : Fin NENV) d, d < 1024 → s'.pde e d = s.pde e d) ∨
  (∃ (e : Fin NENV) (hva : va.toNat < UTOP) (p : Nat), r = 0 ∧ SyscallPerm perm
    ∧ s.findEnv cur envid true = some e.val ∧ s.OnFreeList p ∧ TablesKept e (PDX va) s s'
    ∧ Edit held s s' (Function.update s.ptes (pteAddr e va hva) (page2pa p ||| perm ||| PTE_P))
    ∧ ∀ o < PGSIZE, s'.mem (p * PGSIZE + o) = 0)

/-- What `sys_page_map` has done when it returns `r`: nothing, with an error, or it has mapped
the page that is mapped at the source. -/
def PageMapDone (held : Finset Nat) (cur : Nat) (srcenvid srcva dstenvid dstva perm : Word)
    (s : Kernel) (r : Word) (s' : Kernel) : Prop :=
  (r ≠ 0 ∧ s' = s) ∨
  (∃ (se de : Fin NENV) (hva : dstva.toNat < UTOP) (p : Nat), r = 0 ∧ srcva.toNat < UTOP
    ∧ SyscallPerm perm ∧ s.findEnv cur srcenvid true = some se.val
    ∧ s.findEnv cur dstenvid true = some de.val ∧ refOf (s.pteAt se srcva) = some p
    ∧ (perm &&& PTE_W ≠ 0 → s.pteAt se srcva &&& PTE_W ≠ 0) ∧ TablesKept de (PDX dstva) s s'
    ∧ Edit held s s' (Function.update s.ptes (pteAddr de dstva hva) (page2pa p ||| perm ||| PTE_P)))

/-- What `sys_page_unmap` has done when it returns `r`: nothing, with an error, or it has cleared
the entry if it was present. -/
def PageUnmapDone (held : Finset Nat) (cur : Nat) (envid va : Word) (s : Kernel) (r : Word)
    (s' : Kernel) : Prop :=
  (r ≠ 0 ∧ s' = s) ∨
  (∃ (e : Fin NENV) (hva : va.toNat < UTOP), r = 0 ∧ s.findEnv cur envid true = some e.val
    ∧ (∀ (e : Fin NENV) d, d < 1024 → s'.pde e d = s.pde e d)
    ∧ Edit held s s' (s.cleared (pteAddr e va hva)))

section Calls

variable (h : Wf avail held s) (hfits : Fits avail s) {cur : Nat}
  (hcur : s.curenv = some cur) (hlive : s.Live cur)
include h hfits hcur hlive

theorem sysPageAlloc_done (envid va perm : Word) :
  (sysPageAlloc envid va perm).MayEnd s
    (fun r s' => Wf avail held s' ∧ PageAllocDone held cur envid va perm s r s')
    (fun _ => False)
  := by
  obtain ⟨l, hl⟩ := h.mem
  obtain ⟨fl, hfl⟩ := h.env
  have hfail : ∀ r : Word, r ≠ 0 → (pure r : Prog Kernel Word).MayEnd s
      (fun r s' => Wf avail held s' ∧ PageAllocDone held cur envid va perm s r s')
      (fun _ => False) := by
    intro r hr
    rw [mayEnd_pure]
    exact ⟨h, Or.inl ⟨hr, .refl s, fun _ _ _ => rfl⟩⟩
  rw [sysPageAlloc, mayEnd_ite]
  refine ⟨fun hup => ?_, fun _ => hfail _ (by decide)⟩
  rw [mayEnd_ite]
  refine ⟨fun hsys => ?_, fun _ => hfail _ (by decide)⟩
  rw [mayEnd_ite]
  refine ⟨fun _ => hfail _ (by decide), fun haddr => ?_⟩
  have hva : va.toNat < UTOP := by omega
  have hperm : SyscallPerm perm := ⟨hup, hsys⟩
  rw [mayEnd_of_bind_eq (envid2env_eq hcur envid true)]
  cases hfind : s.findEnv cur envid true with
  | none => exact hfail _ (by decide)
  | some e =>
  have helive := findEnv_live hlive hfind
  obtain ⟨pg, henvpg, hpg⟩ := hfl.live_pgdir helive
  simp only
  rw [show ALLOC_ZERO = 1 from rfl, pageAlloc_one]
  cases l with
  | nil =>
      rw [mayEnd_of_bind_eq (pageAlloc_eq_none (hl.pageFreeList_eq_none.mpr rfl))]
      exact hfail _ (by decide)
  | cons p l =>
  have hp := hl.refs_free List.mem_cons_self
  have hlt := hl.avail_lt p hp.1
  have ht := hl.taken_sameTables
  have hedit := Edit.of_lab (Jos.Edit.taken hl)
  have hpg1 : (s.taken p).pgdir e = some pg := by
    rw [ht.pgdir]
    exact hpg
  have henvpg1 : ((s.taken p).envs e).envPgdir = some pg := henvpg
  have hpp : (s.taken p).Shareable (insert p held) p := Or.inl (Finset.mem_insert_self p held)
  have hwf1 : Wf avail (insert p held) (s.taken p) := h.edit hedit h.user.page ⟨l, hl.taken⟩
  rw [mayEnd_of_bind_eq (pageAlloc_eq_some hl.chain.1 hlt hl.npages_le)]
  simp only
  rw [mayEnd_of_bind_eq (envPgdirOf_eq henvpg1), mayEnd_bind]
  apply (hwf1.insert (e := ⟨e, helive.1⟩) hpg1 hva hpp hperm.lt hperm.user (fits_sameTables ht hfits)).mono _
    (fun _ h => h)
  rintro r s' (⟨rfl, rfl⟩ | ⟨rfl, hwf', ho, hedit'⟩)
  · -- the page goes back to the free list
    rw [if_pos (by decide), pageFree, mayEnd_bind, mayEnd_modify, mayEnd_pure]
    have hq : Quiet (s.taken p) ((s.taken p).freed p) := rfl
    have hback : Edit held s ((s.taken p).freed p) s.ptes :=
      .of_lab ((Jos.Edit.taken hl).trans_mem hq rfl)
    have hmem := hl.taken.freed (Finset.mem_insert_self p held)
    rw [Finset.erase_insert hp.2.1] at hmem
    have hsame : (s.taken p).SameTables ((s.taken p).freed p) :=
      Kernel.SameTables.of_mem rfl rfl rfl
    refine ⟨h.edit hback h.user.page ⟨_, hmem⟩, Or.inl ⟨by decide, hback, ?_⟩⟩
    exact fun e d hd => (hsame.pde e hd).trans (ht.pde e hd)
  · rw [if_neg (by simp), mayEnd_pure]
    rw [Finset.erase_insert hp.2.1] at hwf'
    refine ⟨hwf', Or.inr ⟨⟨e, helive.1⟩, hva, p, rfl, hperm, hfind, ?_, ?_, ?_, ?_⟩⟩
    · exact ⟨_, hl.chain, List.mem_cons_self⟩
    · exact (TablesKept.sameTables _ (PDX_lt va) ht).trans ho
    · rw [hedit.ptes] at hedit'
      exact hedit.trans (hedit'.mono (Finset.subset_insert p held))
    · intro o ho
      rw [hedit'.keeps p hpp o ho]
      exact mem_taken p ho

theorem sysPageMap_done (srcenvid srcva dstenvid dstva perm : Word) :
  (sysPageMap srcenvid srcva dstenvid dstva perm).MayEnd s
    (fun r s' => Wf avail held s'
      ∧ PageMapDone held cur srcenvid srcva dstenvid dstva perm s r s')
    (fun _ => False)
  := by
  obtain ⟨l, hl⟩ := h.mem
  obtain ⟨fl, hfl⟩ := h.env
  have hfail : ∀ r : Word, r ≠ 0 → (pure r : Prog Kernel Word).MayEnd s
      (fun r s' => Wf avail held s'
        ∧ PageMapDone held cur srcenvid srcva dstenvid dstva perm s r s')
      (fun _ => False) := by
    intro r hr
    rw [mayEnd_pure]
    exact ⟨h, Or.inl ⟨hr, rfl⟩⟩
  rw [sysPageMap, mayEnd_of_bind_eq (envid2env_eq hcur srcenvid true)]
  cases hsrc : s.findEnv cur srcenvid true with
  | none => exact hfail _ (by decide)
  | some se =>
  simp only
  rw [mayEnd_of_bind_eq (envid2env_eq hcur dstenvid true)]
  cases hdst : s.findEnv cur dstenvid true with
  | none => exact hfail _ (by decide)
  | some de =>
  simp only
  rw [mayEnd_ite]
  refine ⟨fun _ => hfail _ (by decide), fun hsva => ?_⟩
  rw [mayEnd_ite]
  refine ⟨fun _ => hfail _ (by decide), fun hdva => ?_⟩
  rw [mayEnd_ite]
  refine ⟨fun _ => hfail _ (by decide), fun hup => ?_⟩
  rw [mayEnd_ite]
  refine ⟨fun hsys => ?_, fun _ => hfail _ (by decide)⟩
  rw [not_not] at hup
  have hsva' : srcva.toNat < UTOP := by omega
  have hdva' : dstva.toNat < UTOP := by omega
  have hperm : SyscallPerm perm := ⟨hup, hsys⟩
  have hselive := findEnv_live hlive hsrc
  have hdelive := findEnv_live hlive hdst
  obtain ⟨sepg, hsepg, hsepg'⟩ := hfl.live_pgdir hselive
  obtain ⟨depg, hdepg, hdepg'⟩ := hfl.live_pgdir hdelive
  rw [mayEnd_of_bind_eq (envPgdirOf_eq hsepg), pageLookup_eq]
  cases hq : refOf (s.pteAt se srcva) with
  | none =>
      rw [mayEnd_of_bind_eq (pageLookup_eq_none hl (e := ⟨se, hselive.1⟩) hsepg' hsva' hq)]
      exact hfail _ (by decide)
  | some p =>
  obtain ⟨pt, -, hentry, hlookup⟩ :=
    pageLookup_eq_some hl (e := ⟨se, hselive.1⟩) hsepg' hsva' hq
  rw [mayEnd_of_bind_eq hlookup]
  simp only
  rw [mayEnd_bind, mayEnd_get, mayEnd_ite, hentry]
  refine ⟨fun _ => hfail _ (by decide), fun hw => ?_⟩
  have hw' : perm &&& PTE_W ≠ 0 → s.pteAt se srcva &&& PTE_W ≠ 0 := by
    intro hpw hsw
    exact hw ⟨and_PTE_W_of_ne_zero hpw, hsw⟩
  have hpp : s.Shareable held p := shareable_of_mapped (e := ⟨se, hselive.1⟩) hsva' hq
  have hnot : p ∉ held := h.mapped_notHeld (e := ⟨se, hselive.1⟩) hsva' hq
  rw [mayEnd_of_bind_eq (envPgdirOf_eq hdepg), mayEnd_bind]
  apply (h.insert (e := ⟨de, hdelive.1⟩) hdepg' hdva' hpp hperm.lt hperm.user hfits).mono _ (fun _ h => h)
  rintro r s' (⟨rfl, rfl⟩ | ⟨rfl, hwf', ho, hedit'⟩)
  · rw [if_pos (by decide)]
    exact hfail _ (by decide)
  · rw [if_neg (by simp), mayEnd_pure]
    rw [Finset.erase_eq_of_notMem hnot] at hwf'
    exact ⟨hwf', Or.inr ⟨⟨se, hselive.1⟩, ⟨de, hdelive.1⟩, hdva', p, rfl, hsva', hperm, hsrc, hdst,
      hq, hw', ho, hedit'⟩⟩

theorem sysPageUnmap_done (envid va : Word) :
  (sysPageUnmap envid va).MayEnd s
    (fun r s' => Wf avail held s' ∧ PageUnmapDone held cur envid va s r s')
    (fun _ => False)
  := by
  obtain ⟨l, hl⟩ := h.mem
  obtain ⟨fl, hfl⟩ := h.env
  rw [sysPageUnmap, mayEnd_of_bind_eq (envid2env_eq hcur envid true)]
  cases hfind : s.findEnv cur envid true with
  | none =>
      rw [mayEnd_pure]
      exact ⟨h, Or.inl ⟨by decide, rfl⟩⟩
  | some e =>
  simp only
  rw [mayEnd_ite]
  constructor
  · intro _
    rw [mayEnd_pure]
    exact ⟨h, Or.inl ⟨by decide, rfl⟩⟩
  · intro haddr
    have hva : va.toNat < UTOP := by omega
    have helive := findEnv_live hlive hfind
    obtain ⟨pg, henvpg, hpg⟩ := hfl.live_pgdir helive
    obtain ⟨s', l', heq, hedit, hl', ho⟩ :=
      pageRemove_ok hl (e := ⟨e, helive.1⟩) hpg hva hfits
    rw [mayEnd_of_bind_eq (envPgdirOf_eq henvpg), mayEnd_of_bind_eq heq, mayEnd_pure]
    have hf := pageFlags_cleared h.user.page (pteAddr ⟨e, helive.1⟩ va hva)
    exact ⟨h.edit hedit hf ⟨l', hl'⟩, Or.inr ⟨⟨e, helive.1⟩, hva, rfl, hfind, ho, hedit⟩⟩

end Calls

/-! ### Sending a message -/

/-- The kernel after the environment `e` has received a message of `cur`. -/
def delivered (s : Kernel) (cur e : Nat) (value perm : Word) : Kernel :=
  s.setEnv e { s.envs e with
    envIpcPerm := perm
    envIpcRecving := false
    envIpcValue := value
    envIpcFrom := (s.envs cur).envId
    envStatus := .ENV_RUNNABLE }

/-- What `sys_ipc_try_send` has done when it returns `r`: nothing, with an error, or it has sent
a value, or it has mapped the page that is mapped at the source and sent a value. -/
inductive SendDone (held : Finset Nat) (cur : Nat) (envid value srcva perm : Word) (s : Kernel)
    (r : Word) : Kernel → Prop
  | refused (hr : r ≠ 0) : SendDone held cur envid value srcva perm s r s
  | value {e : Nat} (hr : r = 0) (hlive : s.Live e) (hrecv : (s.envs e).envIpcRecving = true) :
    SendDone held cur envid value srcva perm s r (delivered s cur e value 0)
  | page {e : Fin NENV} {p : Nat} {s1 : Kernel} (hr : r = 0) (hlive : s.Live e)
    (hrecv : (s.envs e).envIpcRecving = true) (hva : (s.envs e).envIpcDstva.toNat < UTOP)
    (hsrc : srcva.toNat < UTOP) (hperm : SyscallPerm perm)
    (hp : refOf (s.pteAt cur srcva) = some p)
    (hw : perm &&& PTE_W ≠ 0 → s.pteAt cur srcva &&& PTE_W ≠ 0)
    (ho : TablesKept e (PDX (s.envs e).envIpcDstva) s s1)
    (hedit : Edit held s s1 (Function.update s.ptes (pteAddr e (s.envs e).envIpcDstva hva)
      (page2pa p ||| perm ||| PTE_P))) :
    SendDone held cur envid value srcva perm s r (delivered s1 cur e value perm)

theorem setIpcPerm_received {e cur : Nat} (hcur : s.curenv = some cur) (value perm : Word) :
  (do setIpcPerm e perm; ipcReceived e value : Prog Kernel Word) s
    = .ok (0, delivered s cur e value perm)
  := by
  have hcur1 : (s.setEnv e { s.envs e with envIpcPerm := perm }).curenv = some cur := hcur
  rw [setIpcPerm, modify_bind, ipcReceived, bind_of_eq (curenv_eq hcur1), modify_bind]
  have hid : ((s.setEnv e { s.envs e with envIpcPerm := perm }).envs cur).envId
      = (s.envs cur).envId := by
    by_cases hce : cur = e
    · rw [hce, s.setEnv_envs_self]
    · rw [s.setEnv_envs_of_ne _ hce]
  rw [hid, s.setEnv_envs_self]
  simp only [Kernel.setEnv, Function.update_idem, delivered]
  rfl

theorem Wf.delivered (h : Wf avail held s) {e : Nat} (hlive : s.Live e) (cur : Nat)
    (value perm : Word) :
  Wf avail held (delivered s cur e value perm)
  := by
  apply h.setEnv hlive.2
  · simp
  · rfl

/-- The environment that `envid` names for the caller `cur`. -/
def Names (s : Kernel) (cur : Nat) (envid : Word) (e : Nat) : Prop :=
  (envid = 0 ∧ e = cur) ∨ (envid ≠ 0 ∧ e = ENVX envid ∧ (s.envs e).envStatus ≠ .ENV_FREE
    ∧ (s.envs e).envId = envid)

theorem names_iff {cur e : Nat} {envid : Word} :
  Names s cur envid e ↔ s.findEnv cur envid false = some e
  := by
  rw [Names, Kernel.findEnv]
  by_cases h0 : envid = 0
  · rw [if_pos h0]
    constructor
    · rintro (⟨-, rfl⟩ | ⟨hne, -⟩)
      · rfl
      · exact (hne h0).elim
    · intro h
      left
      exact ⟨h0, (Option.some.inj h).symm⟩
  · rw [if_neg h0]
    by_cases hno : (s.envs (ENVX envid)).envStatus = .ENV_FREE ∨ (s.envs (ENVX envid)).envId ≠ envid
    · rw [if_pos hno]
      constructor
      · rintro (⟨h, -⟩ | ⟨-, rfl, hst, hid⟩)
        · exact (h0 h).elim
        · exact (hno.elim hst (fun h => h hid)).elim
      · intro h
        cases h
    · rw [if_neg hno, if_neg (by simp)]
      rw [not_or, not_not] at hno
      constructor
      · rintro (⟨h, -⟩ | ⟨-, rfl, -⟩)
        · exact (h0 h).elim
        · rfl
      · intro h
        obtain rfl := Option.some.inj h
        right
        exact ⟨h0, rfl, hno.1, hno.2⟩

/-- A page can not be sent from `srcva` with the permissions `perm`: the address is not that of a
page, the permissions are not proper, no page is mapped there, or it is only mapped for reading. -/
def PageRefused (s : Kernel) (cur : Nat) (srcva perm : Word) : Prop :=
  srcva.toNat % PGSIZE ≠ 0 ∨ ¬ SyscallPerm perm ∨ refOf (s.pteAt cur srcva) = none
    ∨ (perm &&& PTE_W ≠ 0 ∧ s.pteAt cur srcva &&& PTE_W = 0)

/-- The environment `e` asks for a page at an address without a page table, and no page is free
for one. -/
def NoTable (s : Kernel) (e : Nat) : Prop :=
  (s.envs e).envIpcDstva.toNat < UTOP ∧ refOf (s.pde e (PDX (s.envs e).envIpcDstva)) = none
    ∧ s.pageFreeList = none

/-- The outcome of sending a message when `full` is the error for a page table that can not be
had.  The checks are made in this order, and only one outcome is possible. -/
inductive Sends (full : Word) (held : Finset Nat) (cur : Nat) (envid value srcva perm : Word)
    (s : Kernel) : Except (Stop Kernel) (Word × Kernel) → Prop
  | badEnv (h : ∀ e, ¬ Names s cur envid e) :
    Sends full held cur envid value srcva perm s (.ok (-E_BAD_ENV, s))
  | notRecv {e : Nat} (hname : Names s cur envid e) (h : (s.envs e).envIpcRecving = false) :
    Sends full held cur envid value srcva perm s (.ok (-E_IPC_NOT_RECV, s))
  | inval {e : Nat} (hname : Names s cur envid e) (hrecv : (s.envs e).envIpcRecving = true)
    (hsrc : srcva.toNat < UTOP) (h : PageRefused s cur srcva perm) :
    Sends full held cur envid value srcva perm s (.ok (-E_INVAL, s))
  | noTable {e : Nat} (hname : Names s cur envid e) (hrecv : (s.envs e).envIpcRecving = true)
    (hsrc : srcva.toNat < UTOP) (hgood : ¬ PageRefused s cur srcva perm) (h : NoTable s e) :
    Sends full held cur envid value srcva perm s (.ok (full, s))
  | value {e : Nat} (hname : Names s cur envid e) (hrecv : (s.envs e).envIpcRecving = true)
    (h : srcva.toNat < UTOP →
      ¬ PageRefused s cur srcva perm ∧ UTOP ≤ (s.envs e).envIpcDstva.toNat) :
    Sends full held cur envid value srcva perm s (.ok (0, delivered s cur e value 0))
  | page {e : Fin NENV} {p : Nat} {s1 : Kernel} (hname : Names s cur envid e)
    (hrecv : (s.envs e).envIpcRecving = true) (hsrc : srcva.toNat < UTOP)
    (hgood : ¬ PageRefused s cur srcva perm) (hroom : ¬ NoTable s e)
    (hva : (s.envs e).envIpcDstva.toNat < UTOP) (hp : refOf (s.pteAt cur srcva) = some p)
    (ho : TablesKept e (PDX (s.envs e).envIpcDstva) s s1)
    (hedit : Edit held s s1 (Function.update s.ptes (pteAddr e (s.envs e).envIpcDstva hva)
      (page2pa p ||| perm ||| PTE_P))) :
    Sends full held cur envid value srcva perm s (.ok (0, delivered s1 cur e value perm))

/-- Inserting a page fails when a page table is needed and no page is free. -/
theorem pageInsert_noTable {e : Fin NENV} {pg pp : Nat} {va : Word}
    (h : MemInv avail held own [] s) (hpg : s.pgdir e = some pg)
    (hpt : refOf (s.pde e (PDX va)) = none) (perm : Word) :
  pageInsert pg pp va perm s = .ok (-E_NO_MEM, s)
  := by
  rw [Kernel.pde, hpg] at hpt
  rw [pageInsert, pgdirWalk_eq, bind_of_eq (pgdirWalk_create_eq_none h hpt)]
  rfl

section Send

variable (h : Wf avail held s) (hfits : Fits avail s) {cur : Nat} (hcur : s.curenv = some cur)
  (hlive : s.Live cur)
include h hfits hcur hlive

/-- Mapping the page that is sent, and sending the value. -/
theorem ipcSendPage_sends {e p : Nat} {envid srcva perm : Word} (hname : Names s cur envid e)
    (hrecv : (s.envs e).envIpcRecving = true) (hsrc : srcva.toNat < UTOP)
    (hgood : ¬ PageRefused s cur srcva perm) (hp : refOf (s.pteAt cur srcva) = some p)
    (value : Word) :
  ∃ r s', ipcSendPage e value perm p s = .ok (r, s')
    ∧ Sends (-E_INVAL) held cur envid value srcva perm s (.ok (r, s')) ∧ Wf avail held s'
  := by
  obtain ⟨l, hl⟩ := h.mem
  obtain ⟨fl, hfl⟩ := h.env
  have helive := findEnv_live hlive (names_iff.mp hname)
  obtain ⟨epg, heenvpg, hepg⟩ := hfl.live_pgdir helive
  have hperm : SyscallPerm perm := by
    by_contra hbad
    exact hgood (Or.inr (Or.inl hbad))
  rw [ipcSendPage, get_bind]
  by_cases hva : (s.envs e).envIpcDstva.toNat < UTOP
  · have hpp : s.Shareable held p := shareable_of_mapped (e := ⟨cur, hlive.1⟩) hsrc hp
    have hnot : p ∉ held := h.mapped_notHeld (e := ⟨cur, hlive.1⟩) hsrc hp
    rw [if_pos hva, bind_of_eq (envPgdirOf_eq heenvpg)]
    obtain ⟨heq, hnil, hpt⟩ | ⟨s1, l1, heq, hedit, hl1, ho⟩ :=
      pageInsert_ok hl (e := ⟨e, helive.1⟩) hepg hva (hl.shareable hpp) hperm.lt hfits
    · use -E_INVAL, s
      constructor
      · rw [bind_of_eq heq, if_pos (by decide)]
        rfl
      · exact ⟨.noTable hname hrecv hsrc hgood
          ⟨hva, hpt, hl.pageFreeList_eq_none.mpr hnil⟩, h⟩
    · have hcur1 : s1.curenv = some cur := by
        rw [hedit.quiet.curenv]
        exact hcur
      have helive1 : s1.Live e := by
        rw [Kernel.Live, hedit.quiet.envs]
        exact helive
      have hroom : ¬ NoTable s e := by
        rintro ⟨-, hpt, hnone⟩
        obtain rfl := hl.pageFreeList_eq_none.mp hnone
        obtain ⟨h0, -⟩ := ok_inj heq (pageInsert_noTable hl (e := ⟨e, helive.1⟩) hepg hpt perm)
        cases h0
      rw [Finset.erase_eq_of_notMem hnot] at hl1
      have hwf1 : Wf avail held s1 :=
        h.edit hedit (pageFlags_update h.user.page (pageFlags_mk hperm.user p)) ⟨l1, hl1⟩
      use 0, delivered s1 cur e value perm
      constructor
      · rw [bind_of_eq heq, if_neg (by simp)]
        exact setIpcPerm_received hcur1 value perm
      · exact ⟨.page (e := ⟨e, helive.1⟩) hname hrecv hsrc hgood hroom hva hp ho hedit,
          hwf1.delivered helive1 cur value perm⟩
  · rw [if_neg hva]
    use 0, delivered s cur e value 0
    constructor
    · exact setIpcPerm_received hcur value 0
    · exact ⟨.value hname hrecv (fun _ => ⟨hgood, Nat.le_of_not_lt hva⟩),
        h.delivered helive cur value 0⟩

/-- Sending a message returns, and does what it should do but for the error for a page table that
can not be had. -/
theorem sysIpcTrySend_sends (envid value srcva perm : Word) :
  ∃ r s', sysIpcTrySend envid value srcva perm s = .ok (r, s')
    ∧ Sends (-E_INVAL) held cur envid value srcva perm s (.ok (r, s')) ∧ Wf avail held s'
  := by
  obtain ⟨l, hl⟩ := h.mem
  obtain ⟨fl, hfl⟩ := h.env
  rw [sysIpcTrySend, bind_of_eq (envid2env_eq hcur envid false)]
  cases hfind : s.findEnv cur envid false with
  | none =>
      have hno : ∀ e, ¬ Names s cur envid e := by
        intro e hname
        rw [names_iff, hfind] at hname
        cases hname
      exact ⟨_, s, rfl, .badEnv hno, h⟩
  | some e =>
  have hname := names_iff.mpr hfind
  have helive := findEnv_live hlive hfind
  simp only
  rw [get_bind]
  by_cases hrecv : (s.envs e).envIpcRecving = false
  · rw [if_pos hrecv]
    exact ⟨_, s, rfl, .notRecv hname hrecv, h⟩
  rw [if_neg hrecv]
  rw [Bool.not_eq_false] at hrecv
  by_cases hsrc : srcva.toNat < UTOP
  · rw [if_pos hsrc]
    have hinval : PageRefused s cur srcva perm → ∃ r s', (pure (-E_INVAL) : Prog Kernel Word) s
        = .ok (r, s') ∧ Sends (-E_INVAL) held cur envid value srcva perm s (.ok (r, s'))
          ∧ Wf avail held s' :=
      fun hbad => ⟨_, s, rfl, .inval hname hrecv hsrc hbad, h⟩
    by_cases halign : srcva.toNat % PGSIZE ≠ 0
    · rw [if_pos halign]
      exact hinval (Or.inl halign)
    rw [if_neg halign]
    by_cases hup : perm &&& (PTE_U ||| PTE_P) ≠ PTE_U ||| PTE_P
    · rw [if_pos hup]
      exact hinval (Or.inr (Or.inl (fun hp => hup hp.1)))
    rw [if_neg hup]
    by_cases hsys : perm &&& ~~~ PTE_SYSCALL ≠ 0
    · rw [if_pos hsys]
      exact hinval (Or.inr (Or.inl (fun hp => hsys hp.2)))
    rw [if_neg hsys]
    rw [not_not] at halign hup hsys
    obtain ⟨pg, henvpg, hpg⟩ := hfl.live_pgdir hlive
    rw [bind_of_eq (curPgdir_eq hcur henvpg), pageLookup_eq]
    cases hp : refOf (s.pteAt cur srcva) with
    | none =>
        rw [bind_of_eq (pageLookup_eq_none hl (e := ⟨cur, hlive.1⟩) hpg hsrc hp)]
        exact hinval (Or.inr (Or.inr (Or.inl hp)))
    | some p =>
    obtain ⟨pt, -, hentry, hlookup⟩ :=
      pageLookup_eq_some hl (e := ⟨cur, hlive.1⟩) hpg hsrc hp
    rw [bind_of_eq hlookup]
    simp only
    rw [get_bind, hentry]
    by_cases hw : perm &&& PTE_W ≠ 0 ∧ s.pteAt cur srcva &&& PTE_W = 0
    · rw [if_pos hw]
      exact hinval (Or.inr (Or.inr (Or.inr hw)))
    · rw [if_neg hw]
      apply ipcSendPage_sends h hfits hcur hlive hname hrecv hsrc _ hp
      rintro (hbad | hbad | hbad | hbad)
      · exact hbad halign
      · exact hbad ⟨hup, hsys⟩
      · rw [hp] at hbad
        cases hbad
      · exact hw hbad
  · rw [if_neg hsrc]
    exact ⟨_, _, setIpcPerm_received hcur value 0,
      .value hname hrecv (fun hlt => (hsrc hlt).elim), h.delivered helive cur value 0⟩

theorem sysIpcTrySend_done (envid value srcva perm : Word) :
  (sysIpcTrySend envid value srcva perm).MayEnd s
    (fun r s' => Wf avail held s' ∧ SendDone held cur envid value srcva perm s r s')
    (fun _ => False)
  := by
  obtain ⟨r, s', heq, hsends, hwf⟩ := sysIpcTrySend_sends h hfits hcur hlive envid value srcva perm
  rw [mayEnd_of_eq heq]
  use hwf
  generalize hres : (Except.ok (r, s') : Except (Stop Kernel) (Word × Kernel)) = res at hsends
  cases hsends with
  | badEnv =>
      cases hres
      exact .refused (by decide)
  | notRecv =>
      cases hres
      exact .refused (by decide)
  | inval =>
      cases hres
      exact .refused (by decide)
  | noTable =>
      cases hres
      exact .refused (by decide)
  | value hname hrecv =>
      cases hres
      exact .value rfl (findEnv_live hlive (names_iff.mp hname)) hrecv
  | @page e p s1 hname hrecv hsrc hgood hroom hva hp ho hedit =>
      cases hres
      have hperm : SyscallPerm perm := by
        by_contra hbad
        exact hgood (Or.inr (Or.inl hbad))
      have hw : perm &&& PTE_W ≠ 0 → s.pteAt cur srcva &&& PTE_W ≠ 0 := by
        intro hpw hsw
        exact hgood (Or.inr (Or.inr (Or.inr ⟨hpw, hsw⟩)))
      exact .page rfl (findEnv_live hlive (names_iff.mp hname)) hrecv hva hsrc hperm hp hw ho hedit

end Send

end Root

end Jos
