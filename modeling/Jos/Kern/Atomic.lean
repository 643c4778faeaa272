import Jos.Kern.Failing
import Jos.Kern.Fairness
import Jos.Kern.Machine

/-!
# Runs in which system calls fail atomically

Starting from boot, environments make system calls, run in user mode, and are scheduled and
trapped.  Every such step keeps the kernel well formed, as long as a message never asks for
permissions that are bits of an address: `sys_ipc_try_send` does not check them, and would map
another page than the one it counts.
-/

namespace Jos

open Bytes Prog RoundRobin

variable {avail held : Finset Nat} {own : Nat → Nat} {l fl : List Nat} {s s' s'' : Kernel}

/-! ### In user mode -/

/-- Whether the current environment has the page `p` mapped below `UTOP`. -/
def Kernel.OwnPage (s : Kernel) (p : Nat) : Prop :=
  ∃ (cur : Fin NENV) (va : Word), s.curenv = some cur.val ∧ va.toNat < UTOP
    ∧ refOf (s.pteAt cur va) = some p

/-- From `s` to `s'` the current environment ran in user mode, or the kernel wrote to its
pages. The processor sets flags in the entries it uses. -/
structure OwnRan (s s' : Kernel) : Prop where
  quiet : s' = { s with mem := s'.mem, serial := s'.serial, keyboard := s'.keyboard }
  frame : ∀ p i, ¬ s.OwnPage p → i < 1024 → ∃ flags, s'.entry p i = s.entry p i ||| flags
    ∧ (flags = 0 ∨ (s.PagingPage p ∧ present (s.entry p i) ∧ flags &&& ~~~ (PTE_A ||| PTE_D) = 0))

/-- The flags the processor sets do not change the other bits of an entry. -/
theorem and_or_flags {w flags mask : Word} (hflags : flags &&& ~~~ (PTE_A ||| PTE_D) = 0)
    (hmask : ~~~ (PTE_A ||| PTE_D) &&& mask = mask) :
  (w ||| flags) &&& mask = w &&& mask
  := by
  have hzero : flags &&& mask = 0 := by
    rw [← hmask, ← BitVec.and_assoc, hflags]
    exact BitVec.zero_and
  rw [BitVec.and_or_distrib_right, hzero]
  exact BitVec.or_zero

/-- The flags the processor sets do not change which page an entry refers to. -/
theorem refOf_flags {w flags : Word} (h : flags = 0 ∨ flags &&& ~~~ (PTE_A ||| PTE_D) = 0) :
  refOf (w ||| flags) = refOf w
  := by
  obtain rfl | hflags := h
  · exact congrArg refOf BitVec.or_zero
  · have hpres : present (w ||| flags) = present w := by
      rw [present, present, and_or_flags hflags (by decide)]
    have hpage : ptePage (w ||| flags) = ptePage w := by
      rw [ptePage, ptePage, PTE_ADDR, PTE_ADDR, and_or_flags hflags (by decide)]
    rw [refOf, refOf, hpres, hpage]

namespace OwnRan

/-- A page of the paging structures is not mapped below `UTOP`. -/
theorem notOwn (hl : MemInv avail held own l s) {r : Nat} (hr : s.IsTable r) :
  ¬ s.OwnPage r
  := by
  rintro ⟨cur, va, -, hva, hp⟩
  obtain ⟨x, hx, hxr⟩ : ∃ x, ¬ x.Owns ∧ s.slotRef x = some r :=
    ⟨.page cur ⟨PDX va, PDX_lt_of_lt_UTOP hva⟩ ⟨PTX va, PTX_lt va⟩, id, hp⟩
  obtain rfl | ⟨y, hy, hyr⟩ := hr
  · exact Kernel.ne_kernPgdir hl hxr rfl
  · obtain rfl := hl.balanced.owned y x r hy hyr hxr
    exact hx hy

theorem envs (h : OwnRan s s') :
  s'.envs = s.envs
  := by rw [h.quiet]

theorem pgdir (h : OwnRan s s') (e : Nat) :
  s'.pgdir e = s.pgdir e
  := by rw [Kernel.pgdir, Kernel.pgdir, h.envs]

/-- The words of a page of the paging structures refer to the same pages. -/
theorem refOf_entry (h : OwnRan s s') (hl : MemInv avail held own l s) {r i : Nat}
    (hr : s.IsTable r) (hi : i < 1024) :
  refOf (s'.entry r i) = refOf (s.entry r i)
  := by
  obtain ⟨flags, hentry, hflags⟩ := h.frame r i (notOwn hl hr) hi
  rw [hentry]
  apply refOf_flags
  exact hflags.imp_right (fun h => h.2.2)

theorem refOf_pde (h : OwnRan s s') (hl : MemInv avail held own l s) (e : Fin NENV) {d : Nat}
    (hd : d < 1024) :
  refOf (s'.pde e d) = refOf (s.pde e d)
  := by
  rw [Kernel.pde, Kernel.pde, h.pgdir]
  cases hpg : s.pgdir e with
  | none => rfl
  | some pg => exact h.refOf_entry hl (Or.inr ⟨.dir e, trivial, hpg⟩) hd

theorem slotRef (h : OwnRan s s') (hl : MemInv avail held own l s) :
  s'.slotRef = s.slotRef
  := by
  funext x
  cases x with
  | dir e => exact h.pgdir e
  | table e d =>
      have hd := d.isLt
      simp only [NUPDE] at hd
      exact h.refOf_pde hl e (by omega)
  | page e d t =>
      have hd := d.isLt
      simp only [NUPDE] at hd
      have hpde := h.refOf_pde hl e (d := d) (by omega)
      rw [Kernel.slotRef, Kernel.slotRef, Kernel.pte, Kernel.pte, hpde]
      cases hpt : refOf (s.pde e d) with
      | none => rfl
      | some pt => exact h.refOf_entry hl (Or.inr ⟨.table e d, trivial, hpt⟩) t.isLt
  | kern d =>
      have hk : s'.kernPgdir = s.kernPgdir := by rw [h.quiet]
      rw [Kernel.slotRef, Kernel.slotRef, hk, h.refOf_entry hl (Or.inl rfl) d.isLt]

/-- Running in user mode keeps the kernel well formed. -/
theorem wf (h : OwnRan s s') (hs : Wf avail held own s) :
  Wf avail held own s'
  := by
  obtain ⟨l, hl⟩ := hs.mem
  obtain ⟨fl, hfl⟩ := hs.env
  have hn : s'.npages = s.npages := by rw [h.quiet]
  have hk : s'.kernPgdir = s.kernPgdir := by rw [h.quiet]
  have hpages : s'.pages = s.pages := by rw [h.quiet]
  have hlist : s'.pageFreeList = s.pageFreeList := by rw [h.quiet]
  constructor
  case mem =>
    use l
    apply hl.of_store hpages hlist hn hk
    have hstore : s'.store l held own = s.store l held own := by
      rw [Kernel.store, Kernel.store, h.slotRef hl, hpages]
    rw [hstore]
    exact hl.balanced
  case env =>
    use fl
    apply hfl.congr h.envs
    rw [h.quiet]
  case dirs =>
    constructor
    case kern =>
      intro d hd hd' p hp
      rw [hk, h.refOf_entry hl (Or.inl rfl) hd'] at hp
      rw [hn]
      exact hs.dirs.kern d hd hd' p hp
    case upper =>
      intro e pg hpg d hd hd' p hp
      rw [h.pgdir] at hpg
      rw [h.refOf_pde hl e hd'] at hp
      rw [hn]
      exact hs.dirs.upper e pg hpg d hd hd' p hp

end OwnRan

/-! ### System calls -/

/-- A program that is known to return ends as it does. -/
theorem mayEnd_of_ok {α : Type} {m : Prog Kernel α} {Q : α → Kernel → Prop} {L : Kernel → Prop}
    {a : α} (heq : m s = .ok (a, s')) (hQ : Q a s') :
  m.MayEnd s Q L
  := by
  apply mayEnd_intro
  · intro b t ht
    obtain ⟨rfl, rfl⟩ := ok_inj heq ht
    exact hQ
  · intro t ht
    rw [heq] at ht
    cases ht

/-- Making an environment keeps the kernel well formed. -/
theorem made_wf (h : Wf avail held own s) (type : EnvType) (parentId : Word)
    {k : Except Word Nat → Prog Kernel Word}
    (hk : ∀ r s1, Wf avail held own s1 → (∀ e, r = .ok e → (s1.envs e).envStatus = .ENV_RUNNABLE) →
      (k r).MayEnd s1 (fun _ s' => Wf avail held own s') (fun _ => False)) :
  (envAllocType type parentId >>= k).MayEnd s (fun _ s' => Wf avail held own s')
    (fun s' => Wf avail held own s')
  := by
  obtain ⟨l, hl⟩ := h.mem
  obtain ⟨fl, hfl⟩ := h.env
  have hend : ∀ {r s1}, Wf avail held own s1 →
      (∀ e, r = .ok e → (s1.envs e).envStatus = .ENV_RUNNABLE) →
      (k r).MayEnd s1 (fun _ s' => Wf avail held own s') (fun s' => Wf avail held own s') :=
    fun h1 hr => (hk _ _ h1 hr).mono (fun _ _ h => h) (fun _ h => h.elim)
  by_cases hfull : s.envFreeList = some NENV
  · rw [mayEnd_bind, envAllocType, mayEnd_bind, mayEnd_get]
    simp only [hfull]
    rw [if_pos (Nat.le_refl NENV)]
    exact mayEnd_fault _
  · obtain ⟨-, heq⟩ | ⟨e, p, l', fl', s1, -, -, heq, hc, hmem, henv⟩ :=
      envAllocType_ok hl hfl hfull type parentId
    · rw [mayEnd_of_bind_eq heq]
      apply hend h
      intro e he
      cases he
    · rw [mayEnd_of_bind_eq heq]
      apply hend
      · constructor
        case mem => use l'
        case env => use fl'
        case dirs => exact h.dirs.created hc hmem
      · intro e' he'
        cases he'
        rw [hc.envs, Function.update_self]
        rfl

section Handlers

variable (h : Wf avail held own s) (hfits : s.Fits avail own) {cur : Nat}
  (hcur : s.curenv = some cur) (hlive : s.Live cur)
include h hcur hlive

omit h in
/-- Whatever is done with the environment that is named, or without one. -/
theorem named_wf {a1 : Word} {checkperm : Bool} {r : Option Nat → Prog Kernel Word}
    (hnone : (r none).MayEnd s (fun _ s' => Wf avail held own s') (fun s' => Wf avail held own s'))
    (hsome : ∀ e, s.Live e →
      (r (some e)).MayEnd s (fun _ s' => Wf avail held own s') (fun s' => Wf avail held own s')) :
  (envid2env a1 checkperm >>= r).MayEnd s (fun _ s' => Wf avail held own s')
    (fun s' => Wf avail held own s')
  := by
  rw [mayEnd_of_bind_eq (envid2env_eq hcur a1 checkperm)]
  cases hfind : s.findEnv cur a1 checkperm with
  | none => exact hnone
  | some e => exact hsome e (findEnv_live hlive hfind)

include hfits

/-- Destroying an environment keeps the kernel well formed. -/
theorem sysEnvDestroy_wf (envid : Word) :
  (sysEnvDestroy envid).MayEnd s (fun _ s' => Wf avail held own s')
    (fun s' => Wf avail held own s')
  := by
  apply named_wf hcur hlive
  · exact mayEnd_pure _ |>.mpr h
  · intro e helive
    rw [mayEnd_bind]
    apply (envDestroy_wf h (e := ⟨e, helive.1⟩) helive hfits).mono
    · exact fun _ _ h' => mayEnd_pure _ |>.mpr h'
    · exact fun _ h' => h'

/-- Printing a string keeps the kernel well formed, also when its environment may not read
it. -/
theorem sysCputs_wf (p len : Word) :
  (sysCputs p len).MayEnd s (fun _ s' => Wf avail held own s') (fun s' => Wf avail held own s')
  := by
  obtain ⟨fl, hfl⟩ := h.env
  obtain ⟨pg, -, hpg⟩ := hlive.pgdir hfl
  rw [sysCputs, mayEnd_of_bind_eq (curenv_eq hcur)]
  obtain ⟨-, heq⟩ | ⟨-, a, heq⟩ :=
    userMemAssert_ok h (e := ⟨cur, hlive.1⟩) hpg p len (PTE_P ||| PTE_U)
  · rw [mayEnd_of_bind_eq heq]
    apply (Aside.cprintfString len p s).mono
    · exact fun _ _ h' => h'.wf h
    · exact fun _ h' => h'.elim
  · have hwf : Wf avail held own { s with userMemCheckAddr := a } :=
      h.congr rfl rfl rfl rfl rfl rfl rfl
    rw [mayEnd_bind]
    have hdestroy := envDestroy_wf hwf (e := ⟨cur, hlive.1⟩) hlive hfits
    refine MayEnd.of_run_eq (hdestroy.mono ?_ (fun _ h' => h')) heq
    intro _ s' h'
    apply (Aside.cprintfString len p s').mono
    · exact fun _ _ h'' => h''.wf h'
    · exact fun _ h'' => h''.elim

/-- Sending a message keeps the kernel well formed if it asks for permissions only. -/
theorem sysIpcTrySend_wf (envid value srcva perm : Word)
    (hperm : srcva.toNat < UTOP → perm.toNat < 4096) :
  (sysIpcTrySend envid value srcva perm).MayEnd s (fun _ s' => Wf avail held own s')
    (fun s' => Wf avail held own s')
  := by
  obtain ⟨r, s', heq, hdone, hwf⟩ := sysIpcTrySend_ok h hcur hlive envid value srcva perm
  apply mayEnd_of_ok heq
  cases hdone with
  | badEnv | notRecv | refused | noMem => exact h
  | page _ _ hask => exact hwf (hperm hask.2) hfits
  | value hfind => exact h.delivered (findEnv_live hlive hfind) cur value perm

/-- Every system call that asks for permissions only keeps the kernel well formed, whether it
returns or gives up the processor. -/
theorem handler_wf (sys : Syscall) (a1 a2 a3 a4 a5 : Word) (hmodest : Modest sys a3 a4) :
  (sys.handler a1 a2 a3 a4 a5).MayEnd s (fun _ s' => Wf avail held own s')
    (fun s' => Wf avail held own s')
  := by
  obtain ⟨l, hl⟩ := h.mem
  obtain ⟨fl, hfl⟩ := h.env
  have hset : ∀ {e : Nat} {env : Env}, s.Live e → env.envStatus ≠ .ENV_FREE →
      env.envPgdir = (s.envs e).envPgdir → Wf avail held own (s.setEnv e env) :=
    fun he hst hpg => h.setEnv he.2 hst hpg
  cases sys with
  | SYS_cputs =>
      change (sysCputs a1 a2 >>= fun _ => pure 0).MayEnd _ _ _
      rw [mayEnd_bind]
      apply (sysCputs_wf h hfits hcur hlive a1 a2).mono
      · exact fun _ _ h' => mayEnd_pure _ |>.mpr h'
      · exact fun _ h' => h'
  | SYS_cgetc =>
      apply (Aside.consGetc s).mono
      · exact fun _ _ h' => h'.wf h
      · exact fun _ h' => h'.elim
  | SYS_getenvid =>
      change (sysGetenvid).MayEnd _ _ _
      rw [sysGetenvid, mayEnd_of_bind_eq (curenv_eq hcur), mayEnd_bind, mayEnd_get, mayEnd_pure]
      exact h
  | SYS_env_destroy => exact sysEnvDestroy_wf h hfits hcur hlive a1
  | SYS_yield =>
      change ((schedYield : Prog Kernel Unit) >>= fun _ => pure 0).MayEnd _ _ _
      rw [mayEnd_bind]
      exact (schedYield_switched hfl).mono (fun _ _ h' => h'.elim) (fun _ hsw => h.switched hsw)
  | SYS_page_alloc =>
      obtain ⟨r, s', heq, hinv, hdone⟩ := sysPageAlloc_ok hl hfl hcur hlive a1 a2 a3
      apply mayEnd_of_ok heq
      obtain ⟨-, -, hedit⟩ | ⟨_, _, _, _, _, _, _, _, hedit, _⟩ := hdone
      · exact h.edit hedit (hinv hfits)
      · exact h.edit hedit (hinv hfits)
  | SYS_page_map =>
      obtain ⟨r, s', heq, hinv, hdone⟩ := sysPageMap_ok hl hfl hcur hlive a1 a2 a3 a4 a5
      apply mayEnd_of_ok heq
      obtain ⟨-, hedit⟩ | ⟨_, _, _, _, _, _, _, _, _, _, _, _, hedit⟩ := hdone
      · exact h.edit hedit (hinv hfits)
      · exact h.edit hedit (hinv hfits)
  | SYS_page_unmap =>
      obtain ⟨r, s', heq, hinv, hdone⟩ := sysPageUnmap_ok hl hfl hcur hlive a1 a2
      apply mayEnd_of_ok heq
      obtain ⟨-, rfl⟩ | ⟨_, _, _, _, _, hedit⟩ := hdone
      · exact h
      · exact h.edit hedit (hinv hfits)
  | SYS_exofork =>
      change (sysExofork).MayEnd _ _ _
      rw [sysExofork, mayEnd_of_bind_eq (curenv_eq hcur), mayEnd_bind, mayEnd_get]
      apply made_wf h .ENV_TYPE_USER (s.envs cur).envId
      intro r s1 h1 hr
      cases r with
      | error r => exact mayEnd_pure _ |>.mpr h1
      | ok e =>
          simp only
          rw [mayEnd_bind, mayEnd_get, mayEnd_bind, mayEnd_set, mayEnd_pure]
          apply h1.setEnv
          · rw [hr e rfl]
            simp
          · simp
          · rfl
  | SYS_env_mkguest =>
      change (sysEnvMkguest a1 a2).MayEnd _ _ _
      rw [sysEnvMkguest, mayEnd_of_bind_eq (curenv_eq hcur), mayEnd_bind, mayEnd_get]
      apply made_wf h .ENV_TYPE_GUEST (s.envs cur).envId
      intro r s1 h1 hr
      cases r with
      | error r => exact mayEnd_pure _ |>.mpr h1
      | ok e =>
          simp only
          rw [mayEnd_bind, mayEnd_get, mayEnd_bind, mayEnd_set, mayEnd_pure]
          apply h1.setEnv
          · rw [hr e rfl]
            simp
          · simp
          · rfl
  | SYS_env_set_status =>
      change (sysEnvSetStatus a1 a2).MayEnd _ _ _
      rw [sysEnvSetStatus]
      split
      case h_1 => exact mayEnd_pure _ |>.mpr h
      case h_2 st hst =>
        apply named_wf hcur hlive
        · exact mayEnd_pure _ |>.mpr h
        · intro e he
          rw [mayEnd_bind, mayEnd_modify, mayEnd_pure]
          apply hset he
          · rintro rfl
            unfold statusOfWord at hst
            split_ifs at hst
            · cases hst
            · cases hst
          · rfl
  | SYS_env_set_pgfault_upcall =>
      apply named_wf hcur hlive
      · exact mayEnd_pure _ |>.mpr h
      · intro e he
        rw [mayEnd_ite, mayEnd_bind, mayEnd_modify, mayEnd_pure, mayEnd_pure]
        exact ⟨fun _ => h, fun _ => hset he he.2 rfl⟩
  | SYS_env_set_trapframe =>
      apply named_wf hcur hlive
      · exact mayEnd_pure _ |>.mpr h
      · intro e he
        rw [mayEnd_bind]
        apply (kernLoad32_reads (a2 + 48)).mono
        · rintro eip s1 ⟨hreads, -⟩
          have h1 := (Aside.of_reads hreads).wf h
          rw [mayEnd_ite]
          refine ⟨fun _ => mayEnd_pure _ |>.mpr h1, fun _ => ?_⟩
          rw [mayEnd_bind]
          apply (kernLoadWords_reads a2 17).mono
          · rintro ws s2 ⟨hreads', -⟩
            have h2 := (Aside.of_reads hreads').wf h1
            have hlive2 : (s2.envs e).envStatus ≠ .ENV_FREE := by
              rw [(Aside.of_reads hreads').envs, (Aside.of_reads hreads).envs]
              exact he.2
            rw [mayEnd_bind, mayEnd_modify, mayEnd_pure]
            exact h2.setEnv hlive2 hlive2 rfl
          · exact fun _ h' => h'.elim
        · exact fun _ h' => h'.elim
  | SYS_ipc_try_send =>
      exact sysIpcTrySend_wf h hfits hcur hlive a1 a2 a3 a4 (hmodest rfl)
  | SYS_ipc_recv =>
      change (sysIpcRecv a1).MayEnd _ _ _
      rw [sysIpcRecv, mayEnd_ite]
      refine ⟨fun _ => mayEnd_pure _ |>.mpr h, fun _ => ?_⟩
      rw [mayEnd_of_bind_eq (curenv_eq hcur), mayEnd_bind, mayEnd_modify, mayEnd_pure]
      apply hset hlive
      · simp
      · rfl

end Handlers

/-! ### Runs -/

/-- A step of a kernel whose environments run: one of them makes a system call, which returns
or gives up the processor, or runs in user mode, or its registers change, or the scheduler
chooses another one. -/
inductive KernelStep (ok : Syscall → Word → Word → Prop) (s : Kernel) : Kernel → Prop
  | returned {cur : Nat} {sys : Syscall} {a1 a2 a3 a4 a5 r : Word} {s' : Kernel}
    (hcur : s.curenv = some cur) (hrunning : (s.envs cur).envStatus = .ENV_RUNNING)
    (hlive : s.Live cur) (hok : ok sys a3 a4)
    (heq : sys.handler a1 a2 a3 a4 a5 s = .ok (r, s')) : KernelStep ok s s'
  | left {cur : Nat} {sys : Syscall} {a1 a2 a3 a4 a5 : Word} {s' : Kernel}
    (hcur : s.curenv = some cur) (hrunning : (s.envs cur).envStatus = .ENV_RUNNING)
    (hlive : s.Live cur) (hok : ok sys a3 a4)
    (heq : sys.handler a1 a2 a3 a4 a5 s = .error (.leave s')) : KernelStep ok s s'
  | ran {s' : Kernel} (hran : OwnRan s s') : KernelStep ok s s'
  | saved {e : Nat} (tf : Trapframe) (hlive : s.Live e) :
    KernelStep ok s (s.setEnv e { s.envs e with envTf := tf })
  | scheduled {s' : Kernel} (heq : (schedYield : Prog Kernel Unit) s = .error (.leave s')) :
    KernelStep ok s s'

/-- The runs of the kernel. The kernel itself uses the page allocator as it creates the first
environments, and no page ever has more references than its counter can count. -/
inductive KernelRun (avail : Finset Nat) (ok : Syscall → Word → Word → Prop) : Ledger → Prop
  | start {g : Ledger} (hrun : Ledger.Run avail Ledger.Room g) : KernelRun avail ok g
  | step {g : Ledger} {s' : Kernel} (hrun : KernelRun avail ok g)
    (hstep : KernelStep ok g.kernel s') (hfits : s'.Fits avail g.own) :
    KernelRun avail ok { g with kernel := s' }

/-- A step that asks for permissions only keeps the kernel well formed. -/
theorem KernelStep.wf (h : KernelStep Modest s s') (hs : Wf avail held own s)
    (hfits : s.Fits avail own) :
  Wf avail held own s'
  := by
  cases h with
  | returned hcur _ hlive hok heq => exact (handler_wf hs hfits hcur hlive _ _ _ _ _ _ hok).of_eq heq
  | left hcur _ hlive hok heq => exact (handler_wf hs hfits hcur hlive _ _ _ _ _ _ hok).of_leave heq
  | ran hran => exact hran.wf hs
  | saved tf hlive => exact hs.setEnv hlive.2 hlive.2 rfl
  | scheduled heq =>
      obtain ⟨fl, hfl⟩ := hs.env
      exact hs.switched ((schedYield_switched hfl).of_leave heq)

theorem KernelRun.wf {g : Ledger} (h : KernelRun avail Modest g) :
  Wf avail g.held g.own g.kernel ∧ g.kernel.Fits avail g.own
  := by
  induction h with
  | start hrun => exact hrun.wf
  | step _ hstep hfits ih => exact ⟨hstep.wf ih.1 ih.2, hfits⟩

/-- The state after the free page `p` becomes a page table, whose entry for `va` is set to `w`
and counts a reference to the page `pp`. -/
def Kernel.withPage (s : Kernel) (pg p pp : Nat) (va w : Word) : Kernel :=
  ((s.withTable pg (PDX va) p).setEntry p (PTX va) w).incref pp

section WithPage

variable {p pg : Nat} (h : MemInv avail held own (p :: l) s) {e : Fin NENV} {va : Word}
  (hpg : s.pgdir e = some pg) (hva : va.toNat < UTOP) (hnone : refOf (s.pde e (PDX va)) = none)
include h hpg hva hnone

/-- The page table that is added for `va` is empty. -/
theorem withTable_table :
  refOf ((s.withTable pg (PDX va) p).pde e (PDX va)) = some p
    ∧ (s.withTable pg (PDX va) p).entry p (PTX va) = 0
  := by
  have hp := h.refs_free List.mem_cons_self
  have hlt := h.avail_lt p hp.1
  have hn := h.npages_le
  obtain ⟨-, hpde, hptes⟩ := withTable_slotRef h hpg (d := ⟨PDX va, PDX_lt_of_lt_UTOP hva⟩) hnone
  have hpt : refOf ((s.withTable pg (PDX va) p).pde e (PDX va)) = some p := by
    rw [hpde e (PDX va) (PDX_lt va), if_pos ⟨rfl, rfl⟩, refOf_tableEntry (by omega)]
  have hpte := congrFun hptes (pteAddr e va hva)
  rw [ptes_pteAddr, ptes_pteAddr, Kernel.pteAt, Kernel.pte, hpt, Kernel.pteAt, Kernel.pte,
    hnone] at hpte
  use hpt, hpte

/-- Inserting a page where a page table is missing takes a page for it. -/
theorem pageInsert_withPage (pp : Nat) (perm : Word) :
  pageInsert pg pp va perm s = .ok (0, s.withPage pg p pp va (page2pa pp ||| perm ||| PTE_P))
  := by
  have hpt : refOf (s.entry pg (PDX va)) = none := by
    rw [Kernel.pde, hpg] at hnone
    exact hnone
  rw [pageInsert, Prog.bind_of_eq (pgdirWalk_create_eq_some h hpt)]
  simp only
  rw [Prog.get_bind, if_pos (by rw [(withTable_table h hpg hva hnone).2]; rfl), Prog.modify_bind,
    Prog.bind_of_eq (pageIncref_eq pp)]
  rfl

/-- Also if the entry refers to another page than the one that is counted. -/
theorem withPage_slotRef (pp : Nat) (w : Word) :
  (s.withPage pg p pp va w).slotRef
    = Function.update (Function.update s.slotRef (.table e ⟨PDX va, PDX_lt_of_lt_UTOP hva⟩) (some p))
      (.page e ⟨PDX va, PDX_lt_of_lt_UTOP hva⟩ ⟨PTX va, PTX_lt va⟩) (refOf w)
  := by
  have h1 := h.withTable hpg (d := ⟨PDX va, PDX_lt_of_lt_UTOP hva⟩) hnone
  rw [Kernel.withPage, (incref_sameTables pp).slotRef,
    Kernel.setPte_slotRef h1 (d := ⟨PDX va, PDX_lt_of_lt_UTOP hva⟩)
      (withTable_table h hpg hva hnone).1 ⟨PTX va, PTX_lt va⟩ w,
    (withTable_slotRef h hpg (d := ⟨PDX va, PDX_lt_of_lt_UTOP hva⟩) hnone).1]

end WithPage

/-- One slot adds at most one reference. -/
theorem refs_update_le {x : Slot} {v : Option Nat} {m q : Nat}
    (href : s'.slotRef = Function.update s.slotRef x v) (h : s.refs q ≤ m) :
  s'.refs q ≤ m + 1
  := by
  have hu := refs_update href q
  split_ifs at hu <;> omega

/-- What the first calls of the kernel leave behind: `k` environments are ready, the pages `l`
are free, and no page has more than `m` references. -/
structure Staged (l : List Nat) (k m : Nat) (g : Ledger) : Prop where
  reached : Ledger.Run (bootAvail 5) Ledger.Room g
  own : g.own = fun _ => 0
  curenv : g.kernel.curenv = none
  mem : MemInv (bootAvail 5) g.held (fun _ => 0) l g.kernel
  env : EnvInv (List.range' k (NENV - k)) g.kernel
  ready : ∀ e < k, g.kernel.Ready e ∧ (g.kernel.envs e).envId = BitVec.ofNat 32 (4096 + e)
  blank : ∀ e < NENV, k ≤ e → (g.kernel.envs e).envId = 0
  few : ∀ q, g.kernel.refs q ≤ m

namespace Staged

variable {g : Ledger} {k m p : Nat}

/-- After boot no environment is ready. -/
theorem boot :
  ∃ g, Staged [71, 72, 73, 74, 75] 0 1 g ∧ g.held = ∅ ∧ ∀ x, (∀ d, x ≠ .kern d) →
    g.kernel.slotRef x = none
  := by
  have hboot := bootKernel_afterMemInit (n := 5) (by decide)
  obtain ⟨s, heq, ⟨envs, hs⟩, hfree⟩ := envInit_ok (bootKernel 5)
  obtain ⟨hwf, hcur⟩ := hboot.wf heq
  obtain ⟨l, hl⟩ := hwf.mem
  have hfl : EnvInv (List.range NENV) s := by
    apply envInv_of_init hfree
    rw [hs]
  rw [List.range_eq_range'] at hfl
  have hlist : l = [71, 72, 73, 74, 75] := by
    have hchain := bootKernel_chain 5
    have hlist : s.pageFreeList = (bootKernel 5).pageFreeList := by rw [hs]
    have hpages : s.pages = (bootKernel 5).pages := by rw [hs]
    rw [← hlist, ← hpages] at hchain
    exact hl.chain.unique hchain
  use { kernel := s }
  constructor
  · constructor
    case reached => apply Ledger.Run.boot hboot heq
    case own => rfl
    case curenv => apply hcur
    case mem =>
      rw [← hlist]
      apply hl
    case env => apply hfl
    case ready =>
      intro e he
      apply (Nat.not_lt_zero e he).elim
    case blank => exact fun e he _ => (hfree e he).2.2
    case few =>
      intro q
      obtain ⟨hyes, hno⟩ := Kernel.refs_eq hl q
      rw [Ledger.mappings_of_init heq] at hyes hno
      by_cases hp : s.IsPaging q
      · rw [hyes hp]
      · rw [hno hp]
        omega
  · constructor
    · rfl
    · exact fun x hx => slotRef_of_free (fun e he => (hfree e he).1) hx

/-- One more environment can be created. -/
theorem envAlloc (h : Staged (p :: l) k m g) (hk : k < NENV) (hm : m < 65535)
    (hid : nextEnvId k 0 = BitVec.ofNat 32 (4096 + k)) :
  ∃ g', Staged l (k + 1) (m + 1) g' ∧ g'.held = g.held
    ∧ g'.kernel.slotRef = Function.update g.kernel.slotRef (.dir ⟨k, hk⟩) (some p)
  := by
  have hrange : List.range' k (NENV - k) = k :: List.range' (k + 1) (NENV - (k + 1)) := by
    rw [show NENV - k = NENV - (k + 1) + 1 by omega, List.range'_succ]
  have henv := h.env
  rw [hrange] at henv
  obtain ⟨-, hst⟩ := (henv.mem_free k).mp List.mem_cons_self
  obtain ⟨hnil, -⟩ | ⟨e, p', l', fl', s', hfl', hl', heq, hc, hmem, henv'⟩ :=
    envAllocType_ok h.mem henv (by rw [henv.chain.1]; simp; omega) .ENV_TYPE_USER 0
  · cases hnil
  cases hl'
  cases hfl'
  have hfew : ∀ q, s'.refs q ≤ m + 1 := fun q => refs_update_le hc.slotRef (h.few q)
  use { g with kernel := s' }
  constructor
  · constructor
    case reached =>
      apply h.reached.call (c := .envAlloc 0) trivial
      · exact ⟨e, e.isLt, hst⟩
      · rw [Ledger.exec, Jos.envAlloc, Ledger.after_ok heq]
      · intro q _
        have := hfew q
        rw [h.own]
        simp only
        omega
    case own => apply h.own
    case curenv =>
      have hcur : s'.curenv = g.kernel.curenv := by rw [hc.quiet]
      rw [hcur, h.curenv]
    case mem => apply hmem
    case env => apply henv'
    case ready =>
      intro e' he'
      rw [Kernel.Ready, hc.envs]
      by_cases hee : e' = e
      · rw [hee, Function.update_self, newEnv, h.blank e e.isLt (Nat.le_refl _)]
        constructor
        · simp
        · exact hid
      · rw [Function.update_of_ne hee]
        apply h.ready e' (by omega)
    case blank =>
      intro e' he' hle
      rw [hc.envs, Function.update_of_ne (by omega)]
      apply h.blank e' he' (by omega)
    case few => apply hfew
  · constructor
    · rfl
    · apply hc.slotRef

/-- The kernel can take a page. -/
theorem pageAlloc (h : Staged (p :: l) k m g) (hm : m ≤ 65535) :
  ∃ g', Staged l k m g' ∧ g'.held = insert p g.held ∧ g'.kernel.slotRef = g.kernel.slotRef
  := by
  have hlt := h.mem.avail_lt p (h.mem.refs_free List.mem_cons_self).1
  have heq := pageAlloc_eq_some h.mem.chain.1 hlt h.mem.npages_le
  have href := h.mem.taken_sameTables.slotRef
  have hfew : ∀ q, (g.kernel.taken p).refs q ≤ m := by
    intro q
    rw [Kernel.refs, href]
    apply h.few q
  use { g with kernel := g.kernel.taken p, held := insert p g.held }
  constructor
  · constructor
    case reached =>
      apply h.reached.call (c := .pageAlloc) trivial trivial
      · rw [Ledger.exec, Ledger.after_ok heq]
      · intro q _
        have := hfew q
        rw [h.own]
        simp only
        omega
    case own => apply h.own
    case curenv => apply h.curenv
    case mem => apply h.mem.taken
    case env => exact h.env.congr rfl rfl
    case ready => apply h.ready
    case blank => apply h.blank
    case few => apply hfew
  · constructor
    · rfl
    · apply href

/-- The kernel can map a page it has taken where a page table is missing. -/
theorem pageInsert (h : Staged (p :: l) k m g) {pp pg : Nat} (hheld : g.held = {pp}) {e : Fin NENV}
    (he : e.val < k) (hpg : g.kernel.pgdir e = some pg) {va : Word} (hva : va.toNat < UTOP)
    (hnone : refOf (g.kernel.pde e (PDX va)) = none) (hpp : pp ∈ bootAvail 5)
    (hpaging : ¬ g.kernel.IsPaging pp) {perm : Word} (hperm : perm.toNat < 4096)
    (hm : m + 1 < 65535) :
  ∃ g', Staged l k (m + 2) g' ∧ g'.held = ∅
    ∧ g'.kernel = g.kernel.withPage pg p pp va (page2pa pp ||| perm ||| PTE_P)
  := by
  obtain ⟨hready, -⟩ := h.ready e he
  have hlive : g.kernel.Live e := ⟨e.isLt, by rw [hready.2]; simp⟩
  have hinsert := pageInsert_withPage h.mem hpg hva hnone pp perm
  have henvpg : (g.kernel.envs e).envPgdir = some pg := (Kernel.pgdir_eq_some hpg).2
  have heq : (do
      let pgdir ← envPgdirOf e
      Jos.pageInsert pgdir pp va perm) g.kernel
        = .ok (0, g.kernel.withPage pg p pp va (page2pa pp ||| perm ||| PTE_P)) := by
    rw [Prog.bind_of_eq (envPgdirOf_eq henvpg), hinsert]
  have hn := h.mem.npages_le
  have hlt := h.mem.avail_lt pp hpp
  have href := withPage_slotRef h.mem hpg hva hnone pp (page2pa pp ||| perm ||| PTE_P)
  have hfew : ∀ q, (g.kernel.withPage pg p pp va (page2pa pp ||| perm ||| PTE_P)).refs q
      ≤ m + 2 := by
    intro q
    have h1 := refs_update_le (q := q)
      (withTable_slotRef h.mem hpg (d := ⟨PDX va, PDX_lt_of_lt_UTOP hva⟩) hnone).1 (h.few q)
    rw [← (withTable_slotRef h.mem hpg (d := ⟨PDX va, PDX_lt_of_lt_UTOP hva⟩) hnone).1] at href
    apply refs_update_le href h1
  have husable : g.Usable (bootAvail 5) pp := ⟨hpp, .inl (by simp [hheld]), hpaging⟩
  have hmapp : g.kernel.Mappable (bootAvail 5) (p :: l) pp := by
    apply husable.mappable
    rw [h.own]
    exact h.mem
  have hmem : MemInv (bootAvail 5) (g.held.erase pp) (fun _ => 0) l
      (g.kernel.withPage pg p pp va (page2pa pp ||| perm ||| PTE_P)) := by
    have h1 := h.mem.withTable hpg (d := ⟨PDX va, PDX_lt_of_lt_UTOP hva⟩) hnone
    obtain ⟨hpt, hentry⟩ := withTable_table h.mem hpg hva hnone
    apply h1.fillPte (d := ⟨PDX va, PDX_lt_of_lt_UTOP hva⟩) hpt ⟨PTX va, PTX_lt va⟩
    · rw [Kernel.pte, hpt]
      simp only [hentry, refOf_zero]
    · apply mappable_withTable h.mem hpg (d := ⟨PDX va, PDX_lt_of_lt_UTOP hva⟩) hnone hmapp
    · apply refOf_mk (by omega) hperm
  use { g with
    kernel := g.kernel.withPage pg p pp va (page2pa pp ||| perm ||| PTE_P)
    held := g.held.erase pp }
  constructor
  · constructor
    case reached =>
      apply h.reached.call (c := .pageInsert e pp va perm) ⟨hlive, husable, hva, hperm⟩ trivial
      · rw [Ledger.exec, Ledger.after_ok heq]
        rfl
      · intro q _
        have := hfew q
        rw [h.own]
        simp only
        omega
    case own => apply h.own
    case curenv => apply h.curenv
    case mem => apply hmem
    case env =>
      exact h.env.congr rfl rfl
    case ready => apply h.ready
    case blank => apply h.blank
    case few => apply hfew
  · constructor
    · simp [hheld]
    · rfl

end Staged

instance : NeZero NENV :=
  ⟨by decide⟩

instance : NeZero NUPDE :=
  ⟨by decide⟩

instance : NeZero NPTENTRIES :=
  ⟨by decide⟩

/-- What the slots refer to when the first environment has a page. -/
def pagedRef (f : Slot → Option Nat) : Slot → Option Nat :=
  Function.update (Function.update (Function.update (Function.update f (.dir 0) (some 71))
    (.dir 1) (some 73)) (.table 0 0) (some 74)) (.page 0 0 0) (some 72)

/-- Two environments, the first of which has a page. -/
structure Paged (s : Kernel) : Prop where
  mem : MemInv (bootAvail 5) ∅ (fun _ => 0) [75] s
  slots : ∃ f, (∀ x, (∀ d, x ≠ .kern d) → f x = none) ∧ s.slotRef = pagedRef f
  word : s.entry 74 0 = page2pa 72 ||| 7 ||| PTE_P
  few : ∀ q, s.refs q ≤ 5

/-- The kernel can create two environments and give the first one a page. -/
theorem paged :
  ∃ g, Staged [75] 2 5 g ∧ g.held = ∅ ∧ Paged g.kernel
  := by
  obtain ⟨g0, h0, hheld0, hslots0⟩ := Staged.boot
  obtain ⟨g1, h1, hheld1, hslots1⟩ := h0.envAlloc (by decide) (by decide) (by decide)
  obtain ⟨g2, h2, hheld2, hslots2⟩ := h1.pageAlloc (by decide)
  obtain ⟨g3, h3, hheld3, hslots3⟩ := h2.envAlloc (by decide) (by decide) (by decide)
  have href : g3.kernel.slotRef = Function.update (Function.update g0.kernel.slotRef
      (.dir 0) (some 71)) (.dir 1) (some 73) := by
    rw [hslots3, hslots2, hslots1]
    rfl
  have hdir : g3.kernel.pgdir (0 : Fin NENV) = some 71 := by
    have := congrFun href (.dir 0)
    rw [Function.update_of_ne (by decide), Function.update_self] at this
    exact this
  have hnone : refOf (g3.kernel.pde (0 : Fin NENV) (PDX 0)) = none := by
    have := congrFun href (.table 0 0)
    rw [Function.update_of_ne (by decide), Function.update_of_ne (by decide),
      hslots0 _ (by simp)] at this
    exact this
  have hpaging : ¬ g3.kernel.IsPaging 72 := by
    rintro ⟨x, -, hr⟩
    have hheld : 72 ∈ g3.held := by
      rw [hheld3, hheld2]
      exact Finset.mem_insert_self _ _
    have htotal := h3.mem.balanced.held_total 72 hheld
    have hzero : g3.kernel.refs 72 = 0 := Nat.le_zero.mp (htotal ▸ Nat.le_add_right _ _)
    rw [Kernel.refs, refCount.eq_zero_iff] at hzero
    exact hzero x (mem_slots x) hr
  have hva : (0 : Word).toNat < UTOP := by decide
  have hperm : (7 : Word).toNat < 4096 := by decide
  obtain ⟨g4, h4, hheld4, hkernel⟩ := h3.pageInsert (e := 0)
    (by rw [hheld3, hheld2, hheld1, hheld0]; rfl) (by decide) hdir hva hnone
    (mem_bootAvail.mpr (by decide)) hpaging hperm (by decide)
  use g4, h4, hheld4
  constructor
  case mem =>
    rw [← hheld4]
    apply h4.mem
  case slots =>
    use g0.kernel.slotRef, hslots0
    have hd : (⟨PDX 0, PDX_lt_of_lt_UTOP (by decide)⟩ : Fin NUPDE) = 0 := by decide
    have ht : (⟨PTX 0, PTX_lt 0⟩ : Fin NPTENTRIES) = 0 := by decide
    have hw : refOf (page2pa 72 ||| 7 ||| PTE_P) = some 72 := by decide
    rw [hkernel, withPage_slotRef h3.mem hdir hva hnone, href, hd, ht, hw]
    rfl
  case word =>
    rw [hkernel]
    apply Kernel.entry_setEntry
  case few => apply h4.few

/-- The scheduler runs the only environment that is ready. -/
theorem schedYield_only {e : Nat} (he : e < NENV) (hready : s.Ready e)
    (honly : ∀ e' < NENV, s.Ready e' → e' = e) (hpg : (s.envs e).envPgdir ≠ none) :
  (schedYield : Prog Kernel Unit) s = .error (.leave (s.running e))
  := by
  have hnext : IsNext NENV s.Ready (curEnvx s) e := by
    constructor
    case lt => exact he
    case isReady => exact hready
    case first =>
      intro e' he' hready'
      rw [honly e' he' hready']
  rw [schedYield_next hnext, envRun_eq hpg]

/-- Memory, the page allocator and what the slots refer to are the same. -/
structure SameStore (s s' : Kernel) : Prop where
  mem : s'.mem = s.mem
  pages : s'.pages = s.pages
  pageFreeList : s'.pageFreeList = s.pageFreeList
  npages : s'.npages = s.npages
  kernPgdir : s'.kernPgdir = s.kernPgdir
  pgdir : ∀ e, s'.pgdir e = s.pgdir e

namespace SameStore

theorem entry (h : SameStore s s') (p i : Nat) :
  s'.entry p i = s.entry p i
  := by rw [Kernel.entry, Kernel.entry, h.mem]

theorem pde (h : SameStore s s') (e d : Nat) :
  s'.pde e d = s.pde e d
  := by simp only [Kernel.pde, h.pgdir, h.entry]

theorem slotRef (h : SameStore s s') :
  s'.slotRef = s.slotRef
  := by
  funext x
  cases x with
  | dir e => exact h.pgdir e
  | table e d => rw [Kernel.slotRef, Kernel.slotRef, h.pde]
  | page e d t => simp only [Kernel.slotRef, Kernel.pte, h.pde, h.entry]
  | kern d => rw [Kernel.slotRef, Kernel.slotRef, h.kernPgdir, h.entry]

theorem refs (h : SameStore s s') (q : Nat) :
  s'.refs q = s.refs q
  := by rw [Kernel.refs, Kernel.refs, h.slotRef]

theorem memInv (h : SameStore s s') (hl : MemInv avail held own l s) :
  MemInv avail held own l s'
  := by
  apply hl.of_store h.pages h.pageFreeList h.npages h.kernPgdir
  rw [Kernel.store, h.slotRef, h.pages]
  exact hl.balanced

/-- Changing an environment but for its directory. -/
theorem setEnv {e : Nat} {env : Env} (hpg : (s.setEnv e env).pgdir e = s.pgdir e) :
  SameStore s (s.setEnv e env)
  := by
  constructor
  · rfl
  · rfl
  · rfl
  · rfl
  · rfl
  · exact (Kernel.setEnv_views hpg).1

/-- Switching to another environment. -/
theorem running {e : Nat} (hlive : s.Live e) :
  SameStore s (s.running e)
  := by
  constructor
  · exact Kernel.running_mem s e
  · exact (Kernel.running_pages s e).1
  · exact (Kernel.running_pages s e).2
  · rw [Kernel.running_quiet]
  · rw [Kernel.running_quiet]
  · exact Kernel.running_pgdir hlive

end SameStore

theorem Paged.dirs (h : Paged s) :
  s.pgdir 0 = some 71 ∧ s.pgdir 1 = some 73
  := by
  obtain ⟨f, -, hslots⟩ := h.slots
  exact ⟨congrFun hslots (.dir 0), congrFun hslots (.dir 1)⟩

theorem Paged.same (h : Paged s) (hs : SameStore s s') :
  Paged s'
  := by
  constructor
  case mem => exact hs.memInv h.mem
  case slots =>
    rw [hs.slotRef]
    exact h.slots
  case word => rw [hs.entry, h.word]
  case few =>
    intro q
    rw [hs.refs]
    exact h.few q

/-- A page table of the first environment is mapped in the second one, and no page is free. -/
structure Aliased (s : Kernel) : Prop where
  npages : 75 < s.npages ∧ s.npages ≤ 2 ^ 20
  kern : s.kernPgdir ≠ 75
  pageFreeList : s.pageFreeList = none
  page : s.pages 74 = ⟨none, 1⟩
  dir0 : s.slotRef (.dir 0) = some 71
  dir1 : s.slotRef (.dir 1) = some 73
  theirs : s.slotRef (.table 0 0) = some 74
  ours : s.slotRef (.table 1 0) = some 75
  shared : s.slotRef (.page 1 0 0) = some 74
  absent : s.slotRef (.table 1 1) = none
  owner : ∀ x, s.slotRef x = some 75 → x = .table 1 0
  word : s.entry 74 0 ≠ 0
  few : ∀ q, s.refs q ≤ 7

theorem Aliased.same (h : Aliased s) (hs : SameStore s s') :
  Aliased s'
  := by
  have href := hs.slotRef
  constructor
  · rw [hs.npages]
    exact h.npages
  · rw [hs.kernPgdir]
    exact h.kern
  · rw [hs.pageFreeList, h.pageFreeList]
  · rw [hs.pages, h.page]
  · rw [href, h.dir0]
  · rw [href, h.dir1]
  · rw [href, h.theirs]
  · rw [href, h.ours]
  · rw [href, h.shared]
  · rw [href, h.absent]
  · rw [href]
    exact h.owner
  · rw [hs.entry]
    exact h.word
  · intro q
    rw [hs.refs]
    exact h.few q

/-- Mapping the page with permissions that are bits of an address maps the page table. -/
theorem Paged.aliased (h : Paged s) :
  pageInsert 73 72 0 0x2000 s
      = .ok (0, s.withPage 73 75 72 0 (page2pa 72 ||| 0x2000 ||| PTE_P))
    ∧ Aliased (s.withPage 73 75 72 0 (page2pa 72 ||| 0x2000 ||| PTE_P))
  := by
  obtain ⟨f, hf, hslots⟩ := h.slots
  have hva : (0 : Word).toNat < UTOP := by decide
  have hdir : s.pgdir (1 : Fin NENV) = some 73 := congrFun hslots (.dir 1)
  have hold : s.slotRef (.table 1 0) = none := by
    rw [hslots, pagedRef, Function.update_of_ne (by decide), Function.update_of_ne (by decide),
      Function.update_of_ne (by decide), Function.update_of_ne (by decide), hf _ (by simp)]
  have hnone : refOf (s.pde (1 : Fin NENV) (PDX 0)) = none := hold
  have hw : refOf (page2pa 72 ||| 0x2000 ||| PTE_P) = some 74 := by decide
  have htable : (s.withTable 73 (PDX 0) 75).slotRef
      = Function.update s.slotRef (.table 1 0) (some 75) :=
    (withTable_slotRef h.mem hdir (d := 0) hnone).1
  have h1 : MemInv (bootAvail 5) ∅ (fun _ => 0) [] (s.withTable 73 (PDX 0) 75) :=
    h.mem.withTable hdir (d := 0) hnone
  have href : (s.withPage 73 75 72 0 (page2pa 72 ||| 0x2000 ||| PTE_P)).slotRef
      = Function.update (s.withTable 73 (PDX 0) 75).slotRef (.page 1 0 0) (some 74) := by
    rw [htable, withPage_slotRef h.mem hdir hva hnone, hw]
    rfl
  have hthere : (s.withTable 73 (PDX 0) 75).slotRef (.table 0 0) = some 74 := by
    rw [htable, hslots]
    rfl
  use pageInsert_withPage h.mem hdir hva hnone 72 0x2000
  constructor
  case npages => exact ⟨h1.avail_lt 75 (mem_bootAvail.mpr (by decide)), h1.npages_le⟩
  case kern =>
    intro hk
    apply h.mem.kern_notMem
    rw [show s.kernPgdir = 75 from hk]
    exact mem_bootAvail.mpr (by decide)
  case pageFreeList => exact h1.pageFreeList_eq_none.mpr rfl
  case page =>
    have h74 : 74 ∈ bootAvail 5 := mem_bootAvail.mpr (by decide)
    have hone : (s.withTable 73 (PDX 0) 75).refs 74 = 1 := by
      apply refCount.eq_one (mem_slots (.table 0 0)) hthere
      exact fun y _ hy => h1.balanced.owned (.table 0 0) y 74 trivial hthere hy
    have hcount : ((s.withTable 73 (PDX 0) 75).pages 74).ppRef
        = ((s.withTable 73 (PDX 0) 75).refs 74 + 0) % 65536 := h1.balanced.counted 74 h74
    have hlink := h1.unlinked 74 h74 (by simp)
    rw [hone] at hcount
    have hpage : (s.withTable 73 (PDX 0) 75).pages 74 = ⟨none, 1⟩ := by
      cases hpp : (s.withTable 73 (PDX 0) 75).pages 74 with
      | mk link ref =>
          rw [hpp] at hcount hlink
          exact congrArg₂ PageInfo.mk hlink hcount
    exact hpage
  case dir0 =>
    rw [href, htable, hslots]
    rfl
  case dir1 =>
    rw [href, htable, hslots]
    rfl
  case theirs =>
    rw [href, Function.update_of_ne (by decide)]
    exact hthere
  case ours =>
    rw [href, htable]
    rfl
  case shared =>
    rw [href]
    rfl
  case absent =>
    rw [href, htable, hslots, pagedRef, Function.update_of_ne (by decide),
      Function.update_of_ne (by decide), Function.update_of_ne (by decide),
      Function.update_of_ne (by decide), Function.update_of_ne (by decide),
      Function.update_of_ne (by decide), hf _ (by simp)]
  case owner =>
    intro x hx
    have hfree := (h.mem.refs_free List.mem_cons_self).2.2.1
    rw [Kernel.refs, refCount.eq_zero_iff] at hfree
    by_contra hne
    rw [href] at hx
    by_cases hp : x = .page 1 0 0
    · rw [hp, Function.update_self] at hx
      cases hx
    · rw [Function.update_of_ne hp, htable, Function.update_of_ne hne] at hx
      exact hfree x (mem_slots x) hx
  case word =>
    have hentry : (s.withPage 73 75 72 0 (page2pa 72 ||| 0x2000 ||| PTE_P)).entry 74 0
        = (s.withTable 73 (PDX 0) 75).entry 74 0 :=
      Kernel.entry_setEntry_of_ne _ _ (PTX_lt 0) (by decide) (.inl (by decide))
    have hentry' : (s.withTable 73 (PDX 0) 75).entry 74 0 = s.entry 74 0 := by
      rw [Kernel.withTable, Kernel.entry_setEntry_of_ne _ _ (PDX_lt 0) (by decide) (.inl (by decide))]
      exact Kernel.entry_zeroPage_of_ne _ (by decide) (by decide)
    rw [hentry, hentry', h.word]
    decide
  case few =>
    exact fun q => refs_update_le href (refs_update_le htable (h.few q))

/-- The kernel after the second environment unmaps the page table of the first one. -/
def Kernel.stolen (s : Kernel) : Kernel :=
  ({ s with pages := Function.update s.pages 74 ⟨none, 0⟩, pageFreeList := some 74 }).setEntry 75 0 0

section Aliased

variable (h : Aliased s)
include h

theorem Aliased.dirs :
  ((s.envs 0).envStatus ≠ .ENV_FREE ∧ (s.envs 0).envPgdir = some 71)
    ∧ ((s.envs 1).envStatus ≠ .ENV_FREE ∧ (s.envs 1).envPgdir = some 73)
  := ⟨Kernel.pgdir_eq_some h.dir0, Kernel.pgdir_eq_some h.dir1⟩

theorem Aliased.tables :
  refOf (s.entry 71 0) = some 74 ∧ refOf (s.entry 73 0) = some 75 ∧ refOf (s.entry 73 1) = none
    ∧ refOf (s.entry 75 0) = some 74
  := by
  have hpg0 : s.pgdir 0 = some 71 := h.dir0
  have hpg1 : s.pgdir 1 = some 73 := h.dir1
  have htheirs : refOf (s.pde 0 0) = some 74 := h.theirs
  have hours : refOf (s.pde 1 0) = some 75 := h.ours
  have habsent : refOf (s.pde 1 1) = none := h.absent
  have hshared : refOf (s.pte 1 0 0) = some 74 := h.shared
  rw [Kernel.pte, hours] at hshared
  rw [Kernel.pde, hpg0] at htheirs
  rw [Kernel.pde, hpg1] at hours habsent
  use htheirs, hours, habsent, hshared

/-- The page table of the first environment is free after the second one unmaps it. -/
theorem Aliased.unmap (hcur : s.curenv = some 1) :
  sysPageUnmap 0 0 s = .ok (0, s.stolen)
  := by
  obtain ⟨-, hours, -, hshared⟩ := h.tables
  have hfind : s.findEnv 1 0 true = some 1 := rfl
  have hn := h.npages
  have hdecref : s.decref 74
      = { s with pages := Function.update s.pages 74 ⟨none, 0⟩, pageFreeList := some 74 } := by
    rw [decref_eq_freed (by rw [h.page]; rfl), h.pageFreeList]
  have hlookup : pageLookup 73 0 s = .ok (some (74, (75, 0)), s) := by
    have hwalk : pgdirWalk 73 0 false s = .ok (some (75, 0), s) :=
      pgdirWalk_eq_some false hours hn.1
    obtain ⟨hp, hpage⟩ := refOf_eq_some.mp hshared
    have hnum : PGNUM (PTE_ADDR (s.entry 75 0)) = 74 := hpage
    rw [pageLookup, bind_of_eq hwalk]
    simp only
    rw [get_bind, if_neg hp, bind_of_eq (pa2page_eq (by omega)), hnum]
    rfl
  have hremove : pageRemove 73 0 s = .ok ((), s.stolen) := by
    rw [pageRemove, bind_of_eq hlookup]
    simp only
    rw [bind_of_eq (pageDecref_eq (by rw [h.page])), hdecref]
    rfl
  rw [sysPageUnmap, if_neg (by decide), bind_of_eq (envid2env_eq hcur 0 true), hfind]
  simp only
  rw [bind_of_eq (envPgdirOf_eq h.dirs.2.2), bind_of_eq hremove]
  rfl

omit h in
/-- The words of pages that are not unmapped from. -/
theorem stolen_entry {p i : Nat} (hp : p ≠ 75) (hi : i < 1024) :
  s.stolen.entry p i = s.entry p i
  := Kernel.entry_setEntry_of_ne _ _ (by decide) hi (.inl hp)

/-- A page table is then taken for a page, and cleared, by a call that fails. -/
theorem Aliased.fails (hcur : s.curenv = some 1) :
  ∃ s', sysPageAlloc 0 0x400000 7 s.stolen = .ok (-E_NO_MEM, s') ∧ s'.entry 74 0 = 0
  := by
  obtain ⟨-, -, habsent, -⟩ := h.tables
  have hn := h.npages
  have hfind : s.stolen.findEnv 1 0 true = some 1 := rfl
  have hcur' : s.stolen.curenv = some 1 := hcur
  have halloc : pageAlloc s.stolen = .ok (some 74, s.stolen.taken 74) :=
    pageAlloc_eq_some rfl (show 74 < s.npages by omega) hn.2
  have hpage : (s.stolen.taken 74).pages 74 = ⟨none, 0⟩ := by
    simp [Kernel.stolen, Kernel.taken, Kernel.setPage, Kernel.zeroPage, Kernel.setEntry]
  have hlist : (s.stolen.taken 74).pageFreeList = none := by
    simp [Kernel.stolen, Kernel.taken, Kernel.setPage, Kernel.zeroPage, Kernel.setEntry]
  have hpd : refOf ((s.stolen.taken 74).entry 73 (PDX 0x400000)) = none := by
    have hentry : (s.stolen.taken 74).entry 73 1 = s.stolen.entry 73 1 :=
      Kernel.entry_zeroPage_of_ne _ (by decide) (by decide)
    rw [show PDX 0x400000 = 1 from rfl, hentry, stolen_entry (by decide) (by decide), habsent]
  have hinsert : pageInsert 73 74 0x400000 7 (s.stolen.taken 74)
      = .ok (-E_NO_MEM, s.stolen.taken 74) := by
    have hwalk : pgdirWalk 73 0x400000 true (s.stolen.taken 74)
        = .ok (none, s.stolen.taken 74) := by
      rw [pgdirWalk, get_bind, if_pos (refOf_eq_none.mp hpd), if_neg (by simp),
        bind_of_eq (pageAlloc_eq_none hlist)]
      rfl
    rw [pageInsert, bind_of_eq hwalk]
    rfl
  have hpg : ((s.stolen.taken 74).envs 1).envPgdir = some 73 := h.dirs.2.2
  use (s.stolen.taken 74).freed 74
  constructor
  · rw [sysPageAlloc, if_neg (by decide), if_neg (by decide),
      bind_of_eq (envid2env_eq hcur' 0 true), hfind]
    simp only
    rw [bind_of_eq halloc]
    simp only
    rw [bind_of_eq (envPgdirOf_eq hpg), bind_of_eq hinsert, if_pos (by decide),
      bind_of_eq (pageFree_eq (by rw [hpage]) (by rw [hpage]))]
    rfl
  · exact Kernel.entry_zeroPage _ (by decide)

/-- Unmapping the page table adds no reference. -/
theorem Aliased.stolen_refs (q : Nat) :
  s.stolen.refs q ≤ 7
  := by
  refine Nat.le_trans ?_ (h.few q)
  obtain ⟨-, hours, -, -⟩ := h.tables
  have hpgdir : ∀ e, s.stolen.pgdir e = s.pgdir e := fun _ => rfl
  have hne : ∀ x r, x ≠ .table 1 0 → s.slotRef x = some r → r ≠ 75 := by
    rintro x r hx hr rfl
    exact hx (h.owner x hr)
  have hpde : ∀ (e : Fin NENV) d, d < 1024 → s.stolen.pde e d = s.pde e d := by
    intro e d hd
    rw [Kernel.pde, Kernel.pde, hpgdir]
    cases hpg : s.pgdir e with
    | none => rfl
    | some pg => exact stolen_entry (hne (.dir e) pg (by simp) hpg) hd
  apply refCount.mono
  intro x _ hx
  cases x with
  | dir e => exact hx
  | table e d =>
      have hd := d.isLt
      simp only [NUPDE] at hd
      rw [Kernel.slotRef, hpde e d (by omega)] at hx
      exact hx
  | page e d t =>
      have hd := d.isLt
      simp only [NUPDE] at hd
      rw [Kernel.slotRef, Kernel.pte, hpde e d (by omega)] at hx
      rw [Kernel.slotRef, Kernel.pte]
      cases hpt : refOf (s.pde e d) with
      | none =>
          rw [hpt] at hx
          exact hx
      | some pt =>
          rw [hpt] at hx
          by_cases h75 : pt = 75
          · subst h75
            by_cases ht : t.val = 0
            · have hzero : s.stolen.entry 75 0 = 0 := Kernel.entry_setEntry _ _
              rw [ht] at hx
              simp only [hzero, refOf_zero] at hx
              cases hx
            · have hentry : s.stolen.entry 75 t = s.entry 75 t :=
                Kernel.entry_setEntry_of_ne _ _ (by decide) t.isLt (.inr ht)
              simp only [hentry] at hx
              exact hx
          · simp only [stolen_entry h75 t.isLt] at hx
            exact hx
  | kern d =>
      have hk : s.stolen.kernPgdir = s.kernPgdir := rfl
      rw [Kernel.slotRef, hk, stolen_entry h.kern d.isLt] at hx
      exact hx

end Aliased

/-- The id of the environment created first in the slot `e`. -/
def idOf (e : Nat) : Word :=
  BitVec.ofNat 32 (4096 + e)

/-- The environments in the slots `0` and `1` are `c`, which is the current one, and `o`. They have
the statuses `stc` and `sto`, and there are no others. -/
structure Pair (s : Kernel) (c o : Nat) (stc sto : EnvStatus) : Prop where
  slots : c = 0 ∧ o = 1 ∨ c = 1 ∧ o = 0
  curenv : s.curenv = some c
  first : (s.envs c).envType ≠ .ENV_TYPE_IDLE ∧ (s.envs c).envStatus = stc
  second : (s.envs o).envType ≠ .ENV_TYPE_IDLE ∧ (s.envs o).envStatus = sto
  ids : ∀ e < 2, (s.envs e).envId = idOf e
  others : ∀ e < NENV, 2 ≤ e → (s.envs e).envStatus = .ENV_FREE

namespace Pair

variable {c o : Nat} {stc sto : EnvStatus}

section

variable (h : Pair s c o stc sto)
include h

theorem lt :
  c < 2 ∧ o < 2 ∧ c ≠ o
  := by
  have hslots := h.slots
  omega

theorem cases {e : Nat} (he : e < 2) :
  e = c ∨ e = o
  := by
  have hslots := h.slots
  omega

/-- Changing what one of the two does leaves its id, and the others free. -/
theorem set {e : Nat} (he : e < 2) {env : Env} (hid : env.envId = (s.envs e).envId) :
  (∀ e' < 2, ((s.setEnv e env).envs e').envId = idOf e')
    ∧ ∀ e' < NENV, 2 ≤ e' → ((s.setEnv e env).envs e').envStatus = .ENV_FREE
  := by
  constructor
  · intro e' he'
    by_cases hee : e' = e
    · rw [hee, Kernel.setEnv_envs_self, hid]
      exact h.ids e he
    · rw [Kernel.setEnv_envs_of_ne _ _ hee]
      exact h.ids e' he'
  · intro e' he' hle
    rw [Kernel.setEnv_envs_of_ne _ _ (by omega)]
    exact h.others e' he' hle

/-- Changing what the current environment does. -/
theorem setFirst {env : Env} {stc' : EnvStatus} (htype : env.envType = (s.envs c).envType)
    (hid : env.envId = (s.envs c).envId) (hst : env.envStatus = stc') :
  Pair (s.setEnv c env) c o stc' sto
  := by
  obtain ⟨hids, hothers⟩ := h.set h.lt.1 hid
  refine ⟨h.slots, h.curenv, ?_, ?_, hids, hothers⟩
  · rw [Kernel.setEnv_envs_self, htype]
    exact ⟨h.first.1, hst⟩
  · rw [Kernel.setEnv_envs_of_ne _ _ h.lt.2.2.symm]
    exact h.second

/-- Changing what the other environment does. -/
theorem setSecond {env : Env} {sto' : EnvStatus} (htype : env.envType = (s.envs o).envType)
    (hid : env.envId = (s.envs o).envId) (hst : env.envStatus = sto') :
  Pair (s.setEnv o env) c o stc sto'
  := by
  obtain ⟨hids, hothers⟩ := h.set h.lt.2.1 hid
  refine ⟨h.slots, h.curenv, ?_, ?_, hids, hothers⟩
  · rw [Kernel.setEnv_envs_of_ne _ _ h.lt.2.2]
    exact h.first
  · rw [Kernel.setEnv_envs_self, htype]
    exact ⟨h.second.1, hst⟩

/-- Going on with one of the two, when the statuses are known afterwards. -/
theorem running {e e' : Nat} {st st' : EnvStatus} (hslots : e = 0 ∧ e' = 1 ∨ e = 1 ∧ e' = 0)
    (hst : ((s.running e).envs e).envStatus = st)
    (hst' : ((s.running e).envs e').envStatus = st') :
  Pair (s.running e) e e' st st'
  := by
  have hrun : ∀ e'' < 2, ((s.running e).envs e'').envType ≠ .ENV_TYPE_IDLE
      ∧ ((s.running e).envs e'').envId = idOf e'' := by
    intro e'' he''
    obtain ⟨_, _, _, henv, -⟩ := s.running_envs e e''
    rw [henv]
    refine ⟨?_, h.ids e'' he''⟩
    obtain rfl | rfl := h.cases he''
    · exact h.first.1
    · exact h.second.1
  refine ⟨hslots, rfl, ⟨(hrun e (by omega)).1, hst⟩, ⟨(hrun e' (by omega)).1, hst'⟩,
    fun e'' he'' => (hrun e'' he'').2, ?_⟩
  intro e'' he'' hle
  rw [Kernel.running_envs_of_free (h.others e'' he'' hle) (by omega)]
  exact h.others e'' he'' hle

/-- The current environment goes on. -/
theorem stay (hstc : stc = .ENV_RUNNING) :
  Pair (s.running c) c o .ENV_RUNNING sto
  := by
  have hne := h.lt.2.2
  apply h.running h.slots
  · simp only [Kernel.running, Kernel.setEnv, Function.update_self]
  · simp only [Kernel.running, Kernel.setEnv, Kernel.preempted, h.curenv, h.first.2, hstc, if_true]
    rw [Function.update_of_ne hne.symm, Function.update_of_ne hne.symm]
    exact h.second.2

end

/-- The other environment runs when it is the only one that may. -/
theorem switch (h : Pair s c o stc .ENV_RUNNABLE) (hstc : stc ≠ .ENV_RUNNABLE)
    (hpg : (s.envs o).envPgdir ≠ none) :
  (schedYield : Prog Kernel Unit) s = .error (.leave (s.running o))
    ∧ Pair (s.running o) o c .ENV_RUNNING (if stc = .ENV_RUNNING then .ENV_RUNNABLE else stc)
  := by
  obtain ⟨hc, ho, hne⟩ := h.lt
  have hlt : o < NENV := by
    simp only [NENV]
    omega
  refine ⟨schedYield_only hlt h.second ?_ hpg, ?_⟩
  · intro e he hready
    by_cases hlt2 : e < 2
    · obtain rfl | rfl := h.cases hlt2
      · exact (hstc (h.first.2.symm.trans hready.2)).elim
      · rfl
    · have hfree := h.others e he (by omega)
      rw [hready.2] at hfree
      cases hfree
  · apply h.running (by have hslots := h.slots; omega)
    · simp only [Kernel.running, Kernel.setEnv, Function.update_self]
    · by_cases hrun : stc = .ENV_RUNNING
      · simp only [Kernel.running, Kernel.setEnv, Kernel.preempted, h.curenv, h.first.2, hrun, if_true]
        rw [Function.update_of_ne hne, Function.update_self]
      · simp only [Kernel.running, Kernel.setEnv, Kernel.preempted, h.curenv, h.first.2, hrun,
          if_false]
        rw [Function.update_of_ne hne]
        exact h.first.2

end Pair

/-- Few references fit. -/
theorem fits_of_few {m : Nat} (hm : m ≤ 65535) (h : ∀ q, s.refs q ≤ m) :
  s.Fits avail (fun _ => 0)
  := fun q _ => Nat.le_trans (h q) hm

/-- The environment in slot `1` waits for a page, and the one in slot `0` runs and has one. -/
theorem waiting :
  ∃ (g : Ledger) (s : Kernel), KernelRun (bootAvail 5) Modest { g with kernel := s }
    ∧ g.own = (fun _ => 0) ∧ Paged s ∧ Pair s 0 1 .ENV_RUNNING .ENV_NOT_RUNNABLE
    ∧ (s.envs 1).envIpcRecving = true ∧ (s.envs 1).envIpcDstva = 0
  := by
  obtain ⟨g, hg, -, hpaged⟩ := paged
  obtain ⟨hready0, hid0⟩ := hg.ready 0 (by decide)
  obtain ⟨hready1, hid1⟩ := hg.ready 1 (by decide)
  have hlive1 : g.kernel.Live 1 := Rota.Ready.live hready1 (by decide)
  have hpg0 := (Kernel.pgdir_eq_some (hpaged.dirs.1)).2
  have hpg1 := (Kernel.pgdir_eq_some (hpaged.dirs.2)).2
  have hpre : g.kernel.preempted = g.kernel := by
    simp only [Kernel.preempted, hg.curenv]
  -- the environment in slot `1` runs
  have hpaged0 := hpaged.same (.running hlive1)
  have hpair0 : Pair (g.kernel.running 1) 1 0 .ENV_RUNNING .ENV_RUNNABLE := by
    obtain ⟨_, _, _, henv1, -, hst1⟩ := g.kernel.running_envs 1 1
    have henv0 : (g.kernel.running 1).envs 0 = g.kernel.envs 0 := by
      simp only [Kernel.running, Kernel.setEnv, hpre]
      rw [Function.update_of_ne (by decide)]
    constructor
    case slots => exact Or.inr ⟨rfl, rfl⟩
    case curenv => rfl
    case first =>
      rw [henv1]
      exact ⟨hready1.1, hst1 rfl⟩
    case second =>
      rw [henv0]
      exact hready0
    case ids =>
      intro e he
      obtain rfl | rfl : e = 0 ∨ e = 1 := by omega
      · rw [henv0]
        exact hid0
      · rw [henv1]
        exact hid1
    case others =>
      intro e he hle
      have hfree : (g.kernel.envs e).envStatus = .ENV_FREE := by
        apply ((hg.env.mem_free e).mp _).2
        rw [List.mem_range'_1]
        simp only [NENV] at he ⊢
        omega
      rw [Kernel.running_envs_of_free hfree (by omega)]
      exact hfree
  have hstart : KernelRun (bootAvail 5) Modest { g with kernel := g.kernel.running 1 } := by
    apply KernelRun.start
    apply hg.reached.call (c := .envRun 1) hlive1 trivial
    · rw [Ledger.exec, Ledger.after_leave (envRun_eq (by rw [hpg1]; simp))]
    · rw [Ledger.Fits, hg.own]
      exact fits_of_few (by decide) hpaged0.few
  -- it waits for a message
  obtain ⟨s1, hs1⟩ : ∃ s1, s1 = (g.kernel.running 1).setEnv 1 { (g.kernel.running 1).envs 1 with
      envIpcDstva := 0
      envIpcRecving := true
      envIpcValue := 0
      envIpcFrom := 0
      envIpcPerm := 0
      envStatus := .ENV_NOT_RUNNABLE } := ⟨_, rfl⟩
  have hlive0 : (g.kernel.running 1).Live 1 := ⟨by decide, by rw [hpair0.first.2]; simp⟩
  have hrecv : Syscall.SYS_ipc_recv.handler 0 0 0 0 0 (g.kernel.running 1) = .ok (0, s1) := by
    change sysIpcRecv 0 _ = _
    rw [sysIpcRecv, if_neg (by decide), bind_of_eq (curenv_eq hpair0.curenv), modify_bind, hs1]
    rfl
  have hsame1 : SameStore (g.kernel.running 1) s1 := by
    rw [hs1]
    apply SameStore.setEnv
    rw [Kernel.setEnv_pgdir, Kernel.pgdir, if_neg (by simp), if_neg hlive0.2]
  have hpaged1 := hpaged0.same hsame1
  have hrun1 := hstart.step (.returned hpair0.curenv hpair0.first.2 hlive0 (by simp [Modest]) hrecv)
    (by rw [hg.own]; exact fits_of_few (by decide) hpaged1.few)
  have hpair1 : Pair s1 1 0 .ENV_NOT_RUNNABLE .ENV_RUNNABLE := by
    rw [hs1]
    exact hpair0.setFirst rfl rfl rfl
  -- the environment in slot `0` runs
  obtain ⟨hyield, hpair2⟩ := hpair1.switch (by simp)
    (by rw [(Kernel.pgdir_eq_some hpaged1.dirs.1).2]; simp)
  rw [if_neg (by simp)] at hpair2
  have hpaged2 := hpaged1.same
    (.running (e := 0) ⟨by decide, by rw [hpair1.second.2]; simp⟩)
  have hrun2 := hrun1.step (.scheduled hyield)
    (by rw [hg.own]; exact fits_of_few (by decide) hpaged2.few)
  obtain ⟨_, _, _, henv1, -⟩ := s1.running_envs 0 1
  use g, s1.running 0, hrun2, hg.own, hpaged2, hpair2
  rw [henv1, hs1, Kernel.setEnv_envs_self]
  exact ⟨rfl, rfl⟩

/-- The message is sent, and maps the page table of its sender. -/
theorem Paged.send (h : Paged s) (hp : Pair s 0 1 .ENV_RUNNING .ENV_NOT_RUNNABLE)
    (hrecv : (s.envs 1).envIpcRecving = true) (hdst : (s.envs 1).envIpcDstva = 0) :
  ∃ s', sysIpcTrySend 4097 0 0 0x2000 s = .ok (0, s') ∧ Aliased s'
    ∧ Pair s' 0 1 .ENV_RUNNING .ENV_RUNNABLE
  := by
  obtain ⟨hinsert, haliased⟩ := h.aliased
  have hfind : s.findEnv 0 4097 false = some 1 := by
    rw [Kernel.findEnv, if_neg (by decide), if_neg, if_neg (by simp)]
    · rfl
    · rw [show ENVX 4097 = 1 from rfl, hp.second.2, hp.ids 1 (by decide)]
      simp [idOf]
  have hpg0 := (Kernel.pgdir_eq_some h.dirs.1).2
  obtain ⟨hfree1, hpg1⟩ := Kernel.pgdir_eq_some h.dirs.2
  obtain ⟨f, -, hslots⟩ := h.slots
  have hmapped : refOf (s.pteAt (0 : Fin NENV) 0) = some 72 := congrFun hslots (.page 0 0 0)
  obtain ⟨pt, -, -, hlookup⟩ := pageLookup_eq_some h.mem (e := 0) h.dirs.1 (by decide) hmapped
  use (s.withPage 73 75 72 0 (page2pa 72 ||| 0x2000 ||| PTE_P)).delivered 0 1 0 0x2000
  constructor
  · rw [sysIpcTrySend, bind_of_eq (envid2env_eq hp.curenv 4097 false), hfind]
    simp only
    rw [get_bind, if_neg (by rw [hrecv]; simp), if_pos (by rw [hdst]; decide),
      bind_of_eq (curPgdir_eq hp.curenv hpg0), bind_of_eq hlookup, ipcSendPage, get_bind,
      if_neg (by simp [PTE_W]), bind_of_eq (envPgdirOf_eq hpg1), hdst, bind_of_eq hinsert,
      if_neg (by decide)]
    apply ipcReceive_eq
    exact hp.curenv
  · constructor
    · apply haliased.same
      apply SameStore.setEnv
      rw [Kernel.setEnv_pgdir, Kernel.pgdir, if_neg (by simp), if_neg]
      exact hfree1
    · have hp' : Pair (s.withPage 73 75 72 0 (page2pa 72 ||| 0x2000 ||| PTE_P)) 0 1 .ENV_RUNNING
          .ENV_NOT_RUNNABLE := ⟨hp.slots, hp.curenv, hp.first, hp.second, hp.ids, hp.others⟩
      exact hp'.setSecond rfl rfl rfl

theorem KernelRun.mono {ok ok' : Syscall → Word → Word → Prop} {g : Ledger}
    (hok : ∀ sys a3 a4, ok sys a3 a4 → ok' sys a3 a4) (h : KernelRun avail ok g) :
  KernelRun avail ok' g
  := by
  induction h with
  | start hrun => exact .start hrun
  | step _ hstep hfits ih =>
      apply ih.step _ hfits
      cases hstep with
      | returned hcur hrunning hlive h heq => exact .returned hcur hrunning hlive (hok _ _ _ h) heq
      | left hcur hrunning hlive h heq => exact .left hcur hrunning hlive (hok _ _ _ h) heq
      | ran hran => exact .ran hran
      | saved tf hlive => exact .saved tf hlive
      | scheduled heq => exact .scheduled heq

end Jos
