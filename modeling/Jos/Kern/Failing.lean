import Jos.Kern.Accounting
import Jos.Kern.EnvIds
import Jos.Kern.Ipc
import Jos.Kern.UserCheck

/-!
# Failing system calls

A system call that returns an error has changed nothing: not the environments, not the page
directories and page tables, not the reference counts, and not which pages are free.  It has
at most cleared a page that was free and is free again.  The error that there is no memory is
returned only when there are fewer free pages than the call needs.
-/

namespace Jos

open Bytes Prog

variable {avail held : Finset Nat} {own : Nat → Nat} {l fl : List Nat} {s s' s'' : Kernel}

/-! ### What a failing call leaves alone -/

/-- The page `p` is on the list of free pages. -/
def Kernel.OnFreeList (s : Kernel) (p : Nat) : Prop :=
  ∃ l, Chain (fun p => (s.pages p).ppLink) s.pageFreeList l ∧ p ∈ l

/-- Environments, page directories, page tables, reference counts and the set of free pages
are the same. -/
structure Unchanged (s s' : Kernel) : Prop where
  envs : s'.envs = s.envs
  envFreeList : s'.envFreeList = s.envFreeList
  tables : ∀ r, s.IsTable r → ∀ i < 1024, s'.entry r i = s.entry r i
  ppRef : ∀ p, (s'.pages p).ppRef = (s.pages p).ppRef
  free : ∀ p, s'.OnFreeList p ↔ s.OnFreeList p

theorem Unchanged.refl (s : Kernel) :
  Unchanged s s
  := by
  constructor
  · rfl
  · rfl
  · exact fun _ _ _ _ => rfl
  · exact fun _ => rfl
  · exact fun _ => Iff.rfl

/-- Clearing a free page changes nothing else. -/
theorem MemInv.unchanged {p : Nat} (h : MemInv avail held own (p :: l) s) :
  Unchanged s (s.zeroPage p)
  := by
  have hp := h.refs_free List.mem_cons_self
  have hsame := Kernel.SameTables.zeroPage (Kernel.not_isTable h hp.1 hp.2.2.1)
  constructor
  · rfl
  · rfl
  · exact hsame.entry
  · exact fun _ => rfl
  · exact fun _ => Iff.rfl

/-- How many page tables have to be made to map a page at `va` in the environment `e`. -/
def Kernel.tablesFor (s : Kernel) (e : Nat) (va : Word) : Nat :=
  if refOf (s.pde e (PDX va)) = none then 1 else 0

/-- How many pages a system call of the environment `cur` needs. -/
def pagesNeeded (s : Kernel) (cur : Nat) (a1 a2 a3 a4 : Word) : Syscall → Nat
  | .SYS_page_alloc =>
      match s.findEnv cur a1 true with
      | some e => 1 + s.tablesFor e a2
      | none => 0
  | .SYS_page_map =>
      match s.findEnv cur a3 true with
      | some e => s.tablesFor e a4
      | none => 0
  | .SYS_ipc_try_send =>
      match s.findEnv cur a1 false with
      | some e => s.tablesFor e (s.envs e).envIpcDstva
      | none => 0
  | .SYS_exofork | .SYS_env_mkguest => 1
  | _ => 0

/-- What is true of a call that returns `r`: if `r` is an error nothing has changed, and if it
is the error that there is no memory fewer than `n` pages were free. -/
def FailsAtomically (n : Nat) (s : Kernel) (r : Word) (s' : Kernel) : Prop :=
  r.slt 0 = true → Unchanged s s' ∧
    (r = -E_NO_MEM → ∀ l, Chain (fun p => (s.pages p).ppLink) s.pageFreeList l → l.length < n)

theorem FailsAtomically.of_nonneg {n : Nat} {r : Word} (h : r.slt 0 = false) :
  FailsAtomically n s r s'
  := by
  intro hneg
  rw [h] at hneg
  cases hneg

/-- A call that changes nothing, and does not say that there is no memory. -/
theorem FailsAtomically.same {n : Nat} {r : Word} (h : r ≠ -E_NO_MEM) :
  FailsAtomically n s r s
  := fun _ => ⟨.refl s, fun hr => (h hr).elim⟩

/-- A call that changes nothing, and says that there is no memory. -/
theorem FailsAtomically.noMem {n : Nat} {r : Word} (h : MemInv avail held own l s)
    (hun : Unchanged s s') (hlen : l.length < n) :
  FailsAtomically n s r s'
  := by
  intro _
  use hun
  intro _ l' hl'
  rw [hl'.unique h.chain]
  exact hlen

/-! ### The calls that map pages -/

/-- A free page that was taken and given back is cleared. -/
theorem taken_freed {p : Nat} (hlist : s.pageFreeList = some p) :
  (s.taken p).freed p = s.zeroPage p
  := by
  simp only [Kernel.freed, Kernel.taken, Kernel.setPage, Kernel.zeroPage, Function.update_self,
    Function.update_idem, Function.update_eq_self]
  rw [← hlist]

section Calls

variable (h : MemInv avail held own l s) (hi : EnvInv fl s) {cur : Nat}
  (hcur : s.curenv = some cur) (hlive : s.Live cur)
include h hi hcur hlive

/-- When `sys_page_alloc` fails, at most the free page it has tried is cleared. -/
theorem sysPageAlloc_failsAtomically (envid va perm : Word) (a4 : Word) :
  (sysPageAlloc envid va perm).MayEnd s
    (FailsAtomically (pagesNeeded s cur envid va perm a4 .SYS_page_alloc) s) (fun _ => False)
  := by
  rw [sysPageAlloc, mayEnd_ite, mayEnd_ite]
  refine ⟨fun _ => mayEnd_pure _ |>.mpr (.same (by decide)), fun hva => ?_⟩
  refine ⟨fun _ => mayEnd_pure _ |>.mpr (.same (by decide)), fun hperm => ?_⟩
  rw [not_not] at hva hperm
  rw [mayEnd_of_bind_eq (envid2env_eq hcur envid true)]
  cases hfind : s.findEnv cur envid true with
  | none => exact mayEnd_pure _ |>.mpr (.same (by decide))
  | some e =>
      have helive := findEnv_live hlive hfind
      obtain ⟨pg, henvpg, hpg⟩ := helive.pgdir hi
      have hneed : pagesNeeded s cur envid va perm a4 .SYS_page_alloc = 1 + s.tablesFor e va := by
        simp only [pagesNeeded, hfind]
      rw [hneed]
      cases l with
      | nil =>
          simp only
          rw [mayEnd_of_bind_eq (pageAlloc_eq_none (h.pageFreeList_eq_none.mpr rfl))]
          apply mayEnd_pure _ |>.mpr
          apply FailsAtomically.noMem h (.refl s)
          rw [List.length_nil]
          exact Nat.add_pos_left Nat.one_pos _
      | cons p l =>
          have hp := h.refs_free List.mem_cons_self
          have hlt := h.avail_lt p hp.1
          have h1 := h.taken
          have ht := h.taken_sameTables
          have hpg1 : (s.taken p).pgdir e = some pg := by
            rw [ht.pgdir]
            exact hpg
          have hpp : (s.taken p).Shareable (insert p held) p := Or.inl (Finset.mem_insert_self p held)
          simp only
          rw [mayEnd_of_bind_eq (pageAlloc_eq_some h.chain.1 hlt h.npages_le)]
          simp only
          have henvpg1 : ((s.taken p).envs e).envPgdir = some pg := henvpg
          rw [mayEnd_of_bind_eq (envPgdirOf_eq henvpg1)]
          obtain ⟨hins, hnil, hnone⟩ | ⟨s', hins, -, -⟩ :=
            pageInsert_ok (e := ⟨e, helive.1⟩) h1 hpg1 hva.1 (h1.shareable hpp) perm
          · -- the page is given back
            obtain ⟨href, hlink⟩ := h1.held_page (Finset.mem_insert_self p held)
            rw [mayEnd_of_bind_eq hins, if_pos (by decide), mayEnd_of_bind_eq (pageFree_eq href hlink),
              mayEnd_pure, taken_freed h.chain.1]
            apply FailsAtomically.noMem h h.unchanged
            have hlt : PDX va < 1024 := PDX_lt va
            have htable : s.tablesFor e va = 1 := by
              rw [Kernel.tablesFor, ← ht.pde ⟨e, helive.1⟩ hlt, if_pos hnone]
            rw [hnil, htable]
            simp
          · rw [mayEnd_of_bind_eq hins, if_neg (by simp)]
            exact mayEnd_pure _ |>.mpr (.of_nonneg (by decide))

/-- When `sys_page_map` fails nothing changes. -/
theorem sysPageMap_failsAtomically (srcenvid srcva dstenvid dstva perm : Word) :
  (sysPageMap srcenvid srcva dstenvid dstva perm).MayEnd s
    (FailsAtomically (pagesNeeded s cur srcenvid srcva dstenvid dstva .SYS_page_map) s)
    (fun _ => False)
  := by
  rw [sysPageMap, mayEnd_of_bind_eq (envid2env_eq hcur srcenvid true)]
  cases hsrc : s.findEnv cur srcenvid true with
  | none => exact mayEnd_pure _ |>.mpr (.same (by decide))
  | some se =>
      simp only
      rw [mayEnd_of_bind_eq (envid2env_eq hcur dstenvid true)]
      cases hdst : s.findEnv cur dstenvid true with
      | none => exact mayEnd_pure _ |>.mpr (.same (by decide))
      | some de =>
          have hselive := findEnv_live hlive hsrc
          have hdelive := findEnv_live hlive hdst
          obtain ⟨sepg, hsepg, hsepg'⟩ := hselive.pgdir hi
          obtain ⟨depg, hdepg, hdepg'⟩ := hdelive.pgdir hi
          have hneed : pagesNeeded s cur srcenvid srcva dstenvid dstva .SYS_page_map
              = s.tablesFor de dstva := by
            simp only [pagesNeeded, hdst]
          simp only
          rw [hneed, mayEnd_ite, mayEnd_ite]
          refine ⟨fun _ => mayEnd_pure _ |>.mpr (.same (by decide)), fun hva => ?_⟩
          refine ⟨fun _ => mayEnd_pure _ |>.mpr (.same (by decide)), fun hperm => ?_⟩
          simp only [not_or, not_not] at hva
          rw [mayEnd_of_bind_eq (envPgdirOf_eq hsepg)]
          cases hq : refOf (s.pteAt se srcva) with
          | none =>
              rw [mayEnd_of_bind_eq (pageLookup_eq_none h (e := ⟨se, hselive.1⟩) hsepg' hva.1.1 hq)]
              exact mayEnd_pure _ |>.mpr (.same (by decide))
          | some p =>
              obtain ⟨pt, -, hentry, hlookup⟩ :=
                pageLookup_eq_some h (e := ⟨se, hselive.1⟩) hsepg' hva.1.1 hq
              have hpp : s.Shareable held p :=
                shareable_of_mapped (e := ⟨se, hselive.1⟩) hva.1.1 hq
              rw [mayEnd_of_bind_eq hlookup]
              simp only
              rw [mayEnd_bind, mayEnd_get, mayEnd_ite]
              refine ⟨fun _ => mayEnd_pure _ |>.mpr (.same (by decide)), fun hw => ?_⟩
              rw [mayEnd_of_bind_eq (envPgdirOf_eq hdepg)]
              obtain ⟨hins, hnil, hnone⟩ | ⟨s', hins, -, -⟩ :=
                pageInsert_ok (e := ⟨de, hdelive.1⟩) h hdepg' hva.2.1 (h.shareable hpp) perm
              · rw [mayEnd_of_bind_eq hins, if_pos (by decide)]
                apply mayEnd_pure _ |>.mpr
                apply FailsAtomically.noMem h (.refl s)
                rw [hnil, Kernel.tablesFor, if_pos hnone]
                simp
              · rw [mayEnd_of_bind_eq hins, if_neg (by simp)]
                exact mayEnd_pure _ |>.mpr (.of_nonneg (by decide))

/-- When `sys_ipc_try_send` fails nothing changes. -/
theorem sysIpcTrySend_failsAtomically (envid value srcva perm : Word) :
  (sysIpcTrySend envid value srcva perm).MayEnd s
    (FailsAtomically (pagesNeeded s cur envid value srcva perm .SYS_ipc_try_send) s) (fun _ => False)
  := by
  rw [sysIpcTrySend, mayEnd_of_bind_eq (envid2env_eq hcur envid false)]
  cases hfind : s.findEnv cur envid false with
  | none => exact mayEnd_pure _ |>.mpr (.same (by decide))
  | some e =>
      have helive := findEnv_live hlive hfind
      obtain ⟨pg, henvpg, hpg⟩ := hlive.pgdir hi
      obtain ⟨epg, heenvpg, hepg⟩ := helive.pgdir hi
      have hneed : pagesNeeded s cur envid value srcva perm .SYS_ipc_try_send
          = s.tablesFor e (s.envs e).envIpcDstva := by
        simp only [pagesNeeded, hfind]
      have hrecv : ∀ t : Kernel, t.curenv = some cur → (ipcReceive e value perm).MayEnd t
          (FailsAtomically (s.tablesFor e (s.envs e).envIpcDstva) s) (fun _ => False) := by
        intro t ht
        rw [ipcReceive, mayEnd_of_bind_eq (curenv_eq ht), mayEnd_bind, mayEnd_modify, mayEnd_pure]
        exact .of_nonneg (by decide)
      simp only
      rw [hneed, mayEnd_bind, mayEnd_get, mayEnd_ite, mayEnd_ite]
      refine ⟨fun _ => mayEnd_pure _ |>.mpr (.same (by decide)), fun _ => ?_⟩
      refine ⟨fun hask => ?_, fun _ => hrecv s hcur⟩
      rw [mayEnd_of_bind_eq (curPgdir_eq hcur henvpg)]
      cases hq : refOf (s.pteAt cur srcva) with
      | none =>
          rw [mayEnd_of_bind_eq (pageLookup_eq_none h (e := ⟨cur, hlive.1⟩) hpg hask.2 hq)]
          exact mayEnd_pure _ |>.mpr (.same (by decide))
      | some p =>
          obtain ⟨pt, -, hentry, hlookup⟩ :=
            pageLookup_eq_some h (e := ⟨cur, hlive.1⟩) hpg hask.2 hq
          have hpp : s.Shareable held p := shareable_of_mapped (e := ⟨cur, hlive.1⟩) hask.2 hq
          rw [mayEnd_of_bind_eq hlookup, ipcSendPage, mayEnd_bind, mayEnd_get, mayEnd_ite]
          refine ⟨fun _ => mayEnd_pure _ |>.mpr (.same (by decide)), fun _ => ?_⟩
          rw [mayEnd_of_bind_eq (envPgdirOf_eq heenvpg)]
          obtain ⟨hins, hnil, hnone⟩ | ⟨s', hins, hedit, -⟩ :=
            pageInsert_ok (e := ⟨e, helive.1⟩) h hepg hask.1 (h.shareable hpp) perm
          · rw [mayEnd_of_bind_eq hins, if_pos (by decide)]
            apply mayEnd_pure _ |>.mpr
            apply FailsAtomically.noMem h (.refl s)
            rw [hnil, Kernel.tablesFor, if_pos hnone]
            simp
          · rw [mayEnd_of_bind_eq hins, if_neg (by decide)]
            apply hrecv
            rw [hedit.quiet.curenv]
            exact hcur

/-- When `sys_page_unmap` fails nothing changes. -/
theorem sysPageUnmap_failsAtomically (n : Nat) (envid va : Word) :
  (sysPageUnmap envid va).MayEnd s (FailsAtomically n s) (fun _ => False)
  := by
  obtain ⟨r, s', heq, -, hdone⟩ := sysPageUnmap_ok h hi hcur hlive envid va
  apply mayEnd_intro
  · intro a t ht
    obtain ⟨rfl, rfl⟩ := ok_inj heq ht
    obtain ⟨hr, rfl⟩ | ⟨_, _, hr, _⟩ := hdone
    · apply FailsAtomically.same
      rw [hr, pageUnmapError]
      split
      · decide
      · decide
    · rw [hr]
      exact .of_nonneg (by decide)
  · intro t ht
    rw [heq] at ht
    cases ht

end Calls

/-! ### The calls that make environments -/

/-- The identifier of an environment is not an error. -/
theorem nextEnvId_nonneg {e : Nat} (he : e < NENV) (envId : Word) :
  (nextEnvId e envId).slt 0 = false
  := by
  have hpos : ∀ g : Word, g.msb = false → (g ||| BitVec.ofNat 32 e).slt 0#32 = false := by
    intro g hg
    have hsmall : (BitVec.ofNat 32 e).msb = false := by
      rw [BitVec.msb_eq_false_iff_two_mul_lt, BitVec.toNat_ofNat]
      simp only [NENV] at he
      omega
    rw [BitVec.slt_zero_eq_msb, BitVec.msb_or, hg, hsmall]
    rfl
  unfold nextEnvId
  apply hpos
  split
  case isTrue => decide
  case isFalse hgen =>
    rw [← BitVec.slt_zero_eq_msb]
    simp only [BitVec.sle, BitVec.slt, decide_eq_true_eq, decide_eq_false_iff_not] at hgen ⊢
    have hzero : (0 : Word).toInt = (0#32).toInt := rfl
    omega

/-- When no environment can be made nothing changes. -/
theorem envAllocType_refused (h : MemInv avail held own l s) (hi : EnvInv fl s) (type : EnvType)
    (parentId : Word) :
  (envAllocType type parentId).MayEnd s
    (fun r s' => match r with
      | .error r => FailsAtomically 1 s r s'
      | .ok e => e < NENV ∧ (s'.envs e).envId = nextEnvId e (s.envs e).envId) (fun _ => False)
  := by
  by_cases hfull : s.envFreeList = some NENV
  · rw [envAllocType, mayEnd_bind, mayEnd_get]
    simp only [hfull]
    rw [if_pos (Nat.le_refl NENV)]
    exact mayEnd_fault _
  · apply mayEnd_intro
    · intro r t ht
      obtain ⟨hnil, heq⟩ | ⟨e, p, l', fl', t', -, -, heq, hc, -, -⟩ :=
        envAllocType_ok h hi hfull type parentId
      · obtain ⟨rfl, rfl⟩ := ok_inj heq ht
        apply FailsAtomically.noMem h (.refl s)
        rw [hnil]
        exact Nat.one_pos
      · obtain ⟨rfl, rfl⟩ := ok_inj heq ht
        use e.isLt
        rw [hc.envs, Function.update_self]
        rfl
    · intro t ht
      obtain ⟨-, heq⟩ | ⟨e, p, l', fl', t', -, -, heq, -, -, -⟩ :=
        envAllocType_ok h hi hfull type parentId
      · rw [heq] at ht
        cases ht
      · rw [heq] at ht
        cases ht

/-- What a handler returns for a new environment is its identifier, which is not an error. -/
theorem made_failsAtomically {n e : Nat} {s1 : Kernel} {envId : Word} {f : Kernel → Kernel}
    (h : e < NENV ∧ (s1.envs e).envId = nextEnvId e envId) :
  (do
    let s ← get
    set (f s)
    pure (s.envs e).envId : Prog Kernel Word).MayEnd s1 (FailsAtomically n s) (fun _ => False)
  := by
  rw [mayEnd_bind, mayEnd_get, mayEnd_bind, mayEnd_set, mayEnd_pure, h.2]
  exact .of_nonneg (nextEnvId_nonneg h.1 envId)

/-! ### The other calls -/

/-- Nothing changes that belongs to the memory management or to the environments. -/
structure Aside (s s' : Kernel) : Prop where
  mem : s'.mem = s.mem
  npages : s'.npages = s.npages
  pages : s'.pages = s.pages
  pageFreeList : s'.pageFreeList = s.pageFreeList
  kernPgdir : s'.kernPgdir = s.kernPgdir
  envs : s'.envs = s.envs
  envFreeList : s'.envFreeList = s.envFreeList
  curenv : s'.curenv = s.curenv

namespace Aside

theorem composes :
  Composes Aside
  := by
  constructor
  · intro s
    exact ⟨rfl, rfl, rfl, rfl, rfl, rfl, rfl, rfl⟩
  · intro s s' s'' h h'
    constructor
    · exact h'.mem.trans h.mem
    · exact h'.npages.trans h.npages
    · exact h'.pages.trans h.pages
    · exact h'.pageFreeList.trans h.pageFreeList
    · exact h'.kernPgdir.trans h.kernPgdir
    · exact h'.envs.trans h.envs
    · exact h'.envFreeList.trans h.envFreeList
    · exact h'.curenv.trans h.curenv

theorem unchanged (h : Aside s s') :
  Unchanged s s'
  := by
  constructor
  · exact h.envs
  · exact h.envFreeList
  · intro r _ i _
    rw [Kernel.entry, Kernel.entry, h.mem]
  · intro p
    rw [h.pages]
  · intro p
    rw [Kernel.OnFreeList, Kernel.OnFreeList, h.pages, h.pageFreeList]

theorem wf (h : Aside s s') (hs : Wf avail held own s) :
  Wf avail held own s'
  := hs.congr h.mem h.npages h.pages h.pageFreeList h.kernPgdir h.envs h.envFreeList

theorem of_reads (h : Reads s s') :
  Aside s s'
  := by
  rw [h]
  exact ⟨rfl, rfl, rfl, rfl, rfl, rfl, rfl, rfl⟩

theorem putString (fuel : Nat) (p : Word) (precision : Int) :
  Keeps Aside (putString fuel p precision)
  := by
  have hput : ∀ ch, Keeps Aside (cputchar ch) :=
    fun _ => keeps_modify (fun _ => ⟨rfl, rfl, rfl, rfl, rfl, rfl, rfl, rfl⟩)
  induction fuel generalizing p precision with
  | zero => exact keeps_pure composes ()
  | succ fuel ih =>
      apply keeps_bind composes
      · intro s
        apply (kernLoad_reads p).mono
        · exact fun _ _ h => of_reads h.1
        · exact fun _ h => h
      · intro ch
        apply keeps_ite (keeps_pure composes ())
        apply keeps_ite
        · exact keeps_bind composes (hput ch) (fun _ => ih (p + 1) precision)
        · apply keeps_ite
          · exact keeps_bind composes (hput ch) (fun _ => ih (p + 1) (precision - 1))
          · exact keeps_pure composes ()

theorem cprintfString (len s : Word) :
  Keeps Aside (cprintfString len s)
  := keeps_ite (keeps_modify (fun _ => ⟨rfl, rfl, rfl, rfl, rfl, rfl, rfl, rfl⟩)) (putString _ _ _)

theorem polls {f : Kernel → Kernel} (h : ∀ s, Aside s (f s)) :
  Keeps Aside (modify f)
  := keeps_modify h

theorem consGetc :
  Keeps Aside consGetc
  := by
  apply keeps_bind composes
  · exact polls (fun _ => ⟨rfl, rfl, rfl, rfl, rfl, rfl, rfl, rfl⟩)
  · intro _
    apply keeps_bind composes
    · exact polls (fun _ => ⟨rfl, rfl, rfl, rfl, rfl, rfl, rfl, rfl⟩)
    · intro _
      apply keeps_get_bind
      intro s
      rw [mayEnd_ite]
      constructor
      · intro _
        simp only
        rw [mayEnd_bind, mayEnd_set, mayEnd_pure]
        exact ⟨rfl, rfl, rfl, rfl, rfl, rfl, rfl, rfl⟩
      · exact fun _ => mayEnd_pure _ |>.mpr (composes.refl s)

end Aside

/-- The system calls that change the state of environments or of address spaces, or return an
error. -/
def Syscall.Fallible : Syscall → Prop
  | .SYS_exofork | .SYS_env_mkguest | .SYS_page_alloc | .SYS_page_map | .SYS_page_unmap
  | .SYS_env_set_status | .SYS_env_set_pgfault_upcall | .SYS_env_set_trapframe
  | .SYS_ipc_try_send | .SYS_ipc_recv => True
  | _ => False

/-- In a well-formed kernel every system call fails atomically, whatever its arguments are. -/
theorem handler_failsAtomically (h : Wf avail held own s) {cur : Nat} (hcur : s.curenv = some cur)
    (hlive : s.Live cur) {sys : Syscall} (hsys : sys.Fallible) (a1 a2 a3 a4 a5 : Word) :
  (sys.handler a1 a2 a3 a4 a5).MayEnd s
    (FailsAtomically (pagesNeeded s cur a1 a2 a3 a4 sys) s) (fun _ => False)
  := by
  obtain ⟨l, hl⟩ := h.mem
  obtain ⟨fl, hfl⟩ := h.env
  cases sys with
  | SYS_cputs | SYS_cgetc | SYS_getenvid | SYS_env_destroy | SYS_yield => exact hsys.elim
  | SYS_page_alloc => exact sysPageAlloc_failsAtomically hl hfl hcur hlive a1 a2 a3 a4
  | SYS_page_map => exact sysPageMap_failsAtomically hl hfl hcur hlive a1 a2 a3 a4 a5
  | SYS_page_unmap => exact sysPageUnmap_failsAtomically hl hfl hcur hlive _ a1 a2
  | SYS_ipc_try_send => exact sysIpcTrySend_failsAtomically hl hfl hcur hlive a1 a2 a3 a4
  | SYS_exofork =>
      change (sysExofork).MayEnd _ _ _
      rw [sysExofork, mayEnd_of_bind_eq (curenv_eq hcur), mayEnd_bind, mayEnd_get]
      rw [mayEnd_bind]
      apply (envAllocType_refused hl hfl .ENV_TYPE_USER (s.envs cur).envId).mono
      · intro r s1 h1
        cases r with
        | error r => exact mayEnd_pure _ |>.mpr h1
        | ok e => exact made_failsAtomically h1
      · exact fun _ h => h
  | SYS_env_mkguest =>
      change (sysEnvMkguest a1 a2).MayEnd _ _ _
      rw [sysEnvMkguest, mayEnd_of_bind_eq (curenv_eq hcur), mayEnd_bind, mayEnd_get, mayEnd_bind]
      apply (envAllocType_refused hl hfl .ENV_TYPE_GUEST (s.envs cur).envId).mono
      · intro r s1 h1
        cases r with
        | error r => exact mayEnd_pure _ |>.mpr h1
        | ok e => exact made_failsAtomically h1
      · exact fun _ h => h
  | SYS_env_set_status =>
      change (sysEnvSetStatus a1 a2).MayEnd _ _ _
      rw [sysEnvSetStatus]
      split
      case h_1 => exact mayEnd_pure _ |>.mpr (.same (by decide))
      case h_2 =>
        rw [mayEnd_of_bind_eq (envid2env_eq hcur a1 true)]
        cases s.findEnv cur a1 true with
        | none => exact mayEnd_pure _ |>.mpr (.same (by decide))
        | some e =>
            simp only
            rw [mayEnd_bind, mayEnd_modify, mayEnd_pure]
            exact .of_nonneg (by decide)
  | SYS_env_set_pgfault_upcall =>
      change (sysEnvSetPgfaultUpcall a1 a2).MayEnd _ _ _
      rw [sysEnvSetPgfaultUpcall, mayEnd_of_bind_eq (envid2env_eq hcur a1 true)]
      cases s.findEnv cur a1 true with
      | none => exact mayEnd_pure _ |>.mpr (.same (by decide))
      | some e =>
          simp only
          rw [mayEnd_ite, mayEnd_bind, mayEnd_modify, mayEnd_pure, mayEnd_pure]
          exact ⟨fun _ => .same (by decide), fun _ => .of_nonneg (by decide)⟩
  | SYS_env_set_trapframe =>
      change (sysEnvSetTrapframe a1 a2).MayEnd _ _ _
      rw [sysEnvSetTrapframe, mayEnd_of_bind_eq (envid2env_eq hcur a1 true)]
      cases s.findEnv cur a1 true with
      | none => exact mayEnd_pure _ |>.mpr (.same (by decide))
      | some e =>
          simp only
          rw [mayEnd_bind]
          apply (kernLoad32_reads (a2 + 48)).mono
          · rintro eip s1 ⟨hreads, -⟩
            rw [mayEnd_ite]
            constructor
            · intro _
              rw [mayEnd_pure]
              exact fun _ => ⟨(Aside.of_reads hreads).unchanged, fun hr => absurd hr (by decide)⟩
            · intro _
              rw [mayEnd_bind]
              apply (kernLoadWords_reads a2 17).mono
              · rintro ws s2 -
                rw [mayEnd_bind, mayEnd_modify, mayEnd_pure]
                exact .of_nonneg (by decide)
              · exact fun _ h => h
          · exact fun _ h => h
  | SYS_ipc_recv =>
      change (sysIpcRecv a1).MayEnd _ _ _
      rw [sysIpcRecv, mayEnd_ite]
      refine ⟨fun _ => mayEnd_pure _ |>.mpr (.same (by decide)), fun _ => ?_⟩
      rw [mayEnd_of_bind_eq (curenv_eq hcur), mayEnd_bind, mayEnd_modify, mayEnd_pure]
      exact .of_nonneg (by decide)

end Jos
