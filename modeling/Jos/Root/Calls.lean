import Jos.Root.PageCalls

/-!
# The other system calls

What the system calls of the kernel in `kern/` do that create, destroy, resume and describe
environments, in a well-formed kernel.  A call may leave the kernel for another environment
instead of returning.
-/

namespace Jos

namespace Root

open Bytes Prog

variable {avail held : Finset Nat} {l fl : List Nat} {s s' s'' : Kernel} {cur : Nat}

/-! ### Nothing that matters -/

theorem Wf.aside (h : Wf avail held s) (ha : Aside s s') :
  Wf avail held s'
  := h.sameTables (Kernel.SameTables.of_mem ha.envs ha.kernPgdir ha.mem) ha.npages ha.pages
    ha.pageFreeList ha.envFreeList

theorem fits_aside (h : Fits avail s) (ha : Aside s s') :
  Fits avail s'
  := fits_sameTables (Kernel.SameTables.of_mem ha.envs ha.kernPgdir ha.mem) h

/-- Looking for an entry without making a page table changes nothing. -/
theorem pgdirWalk_aside (pgdir : Nat) (va : Word) :
  Keeps Aside (pgdirWalk pgdir va false)
  := by
  have hkaddr : ∀ pa, Keeps Aside (KADDR pa) := by
    intro pa
    apply keeps_get_bind
    intro s
    rw [mayEnd_ite]
    constructor
    · exact fun _ => mayEnd_panic _
    · exact fun _ => mayEnd_pure _ |>.mpr (Aside.composes.refl s)
  apply keeps_get_bind
  intro s
  simp only
  rw [mayEnd_ite]
  constructor
  · exact fun _ => mayEnd_pure _ |>.mpr (Aside.composes.refl s)
  · intro _
    rw [if_neg (by simp), mayEnd_bind]
    apply (hkaddr _ s).mono
    · exact fun _ _ h => mayEnd_pure _ |>.mpr h
    · exact fun _ h => h

/-- Checking user memory records an address and changes nothing else. -/
theorem userMemCheck_aside (pgdir : Nat) (va len perm : Word) :
  Keeps Aside (userMemCheck pgdir va len perm)
  := by
  have hpage : ∀ addr, Keeps Aside (checkPage pgdir va (perm ||| PTE_P) addr) := by
    intro addr
    apply keeps_bind Aside.composes (pgdirWalk_aside pgdir _)
    intro pte
    apply keeps_get_bind
    intro s
    simp only
    rw [mayEnd_ite]
    constructor
    · intro _
      rw [mayEnd_bind, mayEnd_modify, mayEnd_pure]
      exact ⟨rfl, rfl, rfl, rfl, rfl, rfl, rfl, rfl⟩
    · exact fun _ => mayEnd_pure _ |>.mpr (Aside.composes.refl s)
  apply keeps_bind Aside.composes
  · exact keeps_findUp Aside.composes (fun i => hpage _) 0 _
  · exact fun _ => keeps_pure Aside.composes _

/-! ### Destroying -/

/-- What `sys_env_destroy` has done when it returns `r`. -/
def DestroyDone (held : Finset Nat) (cur : Nat) (envid : Word) (s : Kernel) (r : Word)
    (s' : Kernel) : Prop :=
  (r ≠ 0 ∧ s' = s) ∨
  ∃ e : Fin NENV, r = 0 ∧ s.findEnv cur envid true = some e.val ∧ Destroyed held e s s'

theorem sysEnvDestroy_done (h : Wf avail held s) (hfits : Fits avail s)
    (hcur : s.curenv = some cur) (hlive : s.Live cur) (envid : Word) :
  (sysEnvDestroy envid).MayEnd s
    (fun r s' => Wf avail held s' ∧ DestroyDone held cur envid s r s')
    (fun s' => Wf avail held s' ∧ ∃ e : Fin NENV, e.val = cur ∧ DestroyedSelf held e s s')
  := by
  rw [sysEnvDestroy, mayEnd_of_bind_eq (envid2env_eq hcur envid true)]
  cases hfind : s.findEnv cur envid true with
  | none =>
      rw [mayEnd_pure]
      exact ⟨h, Or.inl ⟨by decide, rfl⟩⟩
  | some e =>
  have helive := findEnv_live hlive hfind
  simp only
  rw [mayEnd_bind]
  apply (envDestroy_ends h (e := ⟨e, helive.1⟩) helive hfits).mono
  · rintro _ s' ⟨hd, hwf⟩
    rw [mayEnd_pure]
    exact ⟨hwf, Or.inr ⟨⟨e, helive.1⟩, rfl, hfind, hd⟩⟩
  · rintro s' ⟨hd, hwf⟩
    refine ⟨hwf, ⟨e, helive.1⟩, ?_, hd⟩
    obtain ⟨_, -, hself, -⟩ := hd
    rw [hcur] at hself
    exact (Option.some.inj hself).symm

/-- The current environment is destroyed unless it may access what is checked. -/
theorem userMemAssert_done (h : Wf avail held s) (hfits : Fits avail s)
    (hcur : s.curenv = some cur) (hlive : s.Live cur) (va len perm : Word) :
  (userMemAssert cur va len perm).MayEnd s
    (fun _ s' => Aside s s')
    (fun s' => Wf avail held s' ∧ ∃ (e : Fin NENV) (s1 : Kernel), e.val = cur ∧ Aside s s1
      ∧ DestroyedSelf held e s1 s')
  := by
  rw [userMemAssert, mayEnd_bind, mayEnd_get, mayEnd_bind, mayEnd_orElse]
  refine ⟨?_, fun _ => mayEnd_fault 0⟩
  intro pgdir _
  rw [mayEnd_bind]
  apply (userMemCheck_aside pgdir va len _ s).mono _ (fun _ h => h.elim)
  intro r s1 ha
  have hcur1 : s1.curenv = some cur := by
    rw [ha.curenv]
    exact hcur
  have hlive1 : s1.Live cur := by
    rw [Kernel.Live, ha.envs]
    exact hlive
  rw [mayEnd_ite]
  constructor
  · intro _
    apply (envDestroy_ends (h.aside ha) (e := ⟨cur, hlive.1⟩) hlive1 (fits_aside hfits ha)).mono
    · rintro _ s' ⟨hd, -⟩
      cases hd with
      | dying _ hother => exact (hother hcur1).elim
      | freed _ hother => exact (hother hcur1).elim
    · rintro s' ⟨hd, hwf⟩
      exact ⟨hwf, ⟨cur, hlive.1⟩, s1, rfl, ha, hd⟩
  · intro _
    rw [mayEnd_pure]
    exact ha

/-- The console is written to for an environment that may read what it prints, and another
environment is destroyed. -/
theorem sysCputs_done (h : Wf avail held s) (hfits : Fits avail s)
    (hcur : s.curenv = some cur) (hlive : s.Live cur) (p len : Word) :
  (sysCputs p len).MayEnd s
    (fun _ s' => Wf avail held s' ∧ Aside s s')
    (fun s' => Wf avail held s' ∧ ∃ (e : Fin NENV) (s1 : Kernel), e.val = cur ∧ Aside s s1
      ∧ DestroyedSelf held e s1 s')
  := by
  rw [sysCputs, mayEnd_of_bind_eq (curenv_eq hcur), mayEnd_bind]
  apply (userMemAssert_done h hfits hcur hlive p len PTE_U).mono _ (fun _ h => h)
  intro _ s1 ha
  apply (Aside.cprintfString len p s1).mono _ (fun _ h => h.elim)
  intro _ s2 ha2
  have ha' := Aside.composes.trans ha ha2
  exact ⟨h.aside ha', ha'⟩

/-! ### Creating -/

/-- The kernel after the new environment `e` has got the registers of `cur`. -/
def forked (s : Kernel) (cur e : Nat) : Kernel :=
  s.setEnv e { s.envs e with
    envStatus := .ENV_NOT_RUNNABLE
    envTf := { (s.envs cur).envTf with
      tfRegs := { (s.envs cur).envTf.tfRegs with regEax := 0 } } }

/-- What `sys_exofork` has done: nothing, or it has created an environment. -/
def ExoforkDone (cur : Nat) (s s' : Kernel) : Prop :=
  s' = s ∨ ∃ (e : Fin NENV) (p : Nat) (parentId : Word) (s1 : Kernel),
    Created e p .ENV_TYPE_USER parentId s s1 ∧ s' = forked s1 cur e

theorem Wf.forked (h : Wf avail held s) {e : Nat} (hlive : s.Live e) (cur : Nat) :
  Wf avail held (forked s cur e)
  := by
  apply h.setEnv hlive.2
  · simp
  · rfl

/-- A created environment is live. -/
theorem created_live {e : Fin NENV} {p : Nat} {type : EnvType} {parentId : Word}
    (h : Created e p type parentId s s') :
  s'.Live e
  := by
  use e.isLt
  rw [h.envs, Function.update_self]
  simp [newEnv]

/-- A child is created when an environment and a page are free. -/
theorem sysExofork_forks {own : Nat → Nat} {e : Fin NENV} {p : Nat}
    (hl : MemInv avail held own (p :: l) s)
    (hfl : EnvInv (e.val :: fl) s) (hcur : s.curenv = some cur) (hlive : s.Live cur) :
  ∃ s1, Created e p .ENV_TYPE_USER (s.envs cur).envId s s1 ∧ MemInv avail held own l s1
    ∧ EnvInv fl s1 ∧ sysExofork s = .ok (((forked s1 cur e).envs e).envId, forked s1 cur e)
  := by
  obtain ⟨hnil, -⟩ | ⟨-, hnil, -⟩ | ⟨e', p', l', fl', s1, hfl', hl', heq, hc, hl1, hfl1⟩ :=
    envAlloc_ok hl hfl (s.envs cur).envId
  · cases hnil
  · cases hnil
  · obtain ⟨he, rfl⟩ := List.cons.inj hfl'
    obtain rfl : e = e' := Fin.ext he
    obtain ⟨rfl, rfl⟩ := List.cons.inj hl'
    have hne : cur ≠ e.val := by
      rintro rfl
      exact hlive.2 hc.free
    have hfork : (s1.setEnv e { s1.envs e with envStatus := .ENV_NOT_RUNNABLE }).setEnv e
        { (s1.setEnv e { s1.envs e with envStatus := .ENV_NOT_RUNNABLE }).envs e with
          envTf := { ((s1.setEnv e { s1.envs e with
              envStatus := .ENV_NOT_RUNNABLE }).envs cur).envTf with
            tfRegs := { ((s1.setEnv e { s1.envs e with
              envStatus := .ENV_NOT_RUNNABLE }).envs cur).envTf.tfRegs with regEax := 0 } } }
        = forked s1 cur e := by
      rw [s1.setEnv_envs_of_ne _ hne, s1.setEnv_envs_self]
      simp only [Kernel.setEnv, Function.update_idem, forked]
    refine ⟨s1, hc, hl1, hfl1, ?_⟩
    rw [sysExofork, bind_of_eq (curenv_eq hcur), get_bind, bind_of_eq heq]
    simp only
    rw [modify_bind, modify_bind, hfork]
    rfl

theorem sysExofork_done (h : Wf avail held s) (hcur : s.curenv = some cur) (hlive : s.Live cur) :
  sysExofork.MayEnd s (fun _ s' => Wf avail held s' ∧ ExoforkDone cur s s') (fun _ => False)
  := by
  obtain ⟨l, hl⟩ := h.mem
  obtain ⟨fl, hfl⟩ := h.env
  obtain ⟨-, heq⟩ | ⟨-, -, heq⟩ | ⟨e, p, l', fl', s1, rfl, rfl, -⟩ :=
    envAlloc_ok hl hfl (s.envs cur).envId
  · rw [sysExofork, mayEnd_of_bind_eq (curenv_eq hcur), mayEnd_bind, mayEnd_get,
      mayEnd_of_bind_eq heq, mayEnd_pure]
    exact ⟨h, Or.inl rfl⟩
  · rw [sysExofork, mayEnd_of_bind_eq (curenv_eq hcur), mayEnd_bind, mayEnd_get,
      mayEnd_of_bind_eq heq, mayEnd_pure]
    exact ⟨h, Or.inl rfl⟩
  · obtain ⟨s1, hc, hl1, hfl1, heq⟩ := sysExofork_forks hl hfl hcur hlive
    rw [mayEnd_of_eq heq]
    exact ⟨(h.created hc hl1 hfl1).forked (created_live hc) cur, Or.inr ⟨e, p, _, s1, hc, rfl⟩⟩

/-! ### Describing -/

/-- What `sys_env_set_status` has done: nothing, or it has set the status. -/
theorem sysEnvSetStatus_done (h : Wf avail held s) (hcur : s.curenv = some cur)
    (hlive : s.Live cur) (envid status : Word) :
  (sysEnvSetStatus envid status).MayEnd s (fun _ s' => Wf avail held s' ∧ (s' = s ∨
      ∃ e st, s.findEnv cur envid true = some e ∧ statusOfWord status = some st
        ∧ s' = s.setEnv e { s.envs e with envStatus := st }))
    (fun _ => False)
  := by
  rw [sysEnvSetStatus]
  cases hst : statusOfWord status with
  | none =>
      rw [mayEnd_pure]
      exact ⟨h, Or.inl rfl⟩
  | some st =>
  have hnot : st ≠ .ENV_FREE := by
    rw [statusOfWord] at hst
    split_ifs at hst
    · obtain rfl := Option.some.inj hst
      simp
    · obtain rfl := Option.some.inj hst
      simp
  simp only
  rw [mayEnd_of_bind_eq (envid2env_eq hcur envid true)]
  cases hfind : s.findEnv cur envid true with
  | none =>
      rw [mayEnd_pure]
      exact ⟨h, Or.inl rfl⟩
  | some e =>
      have helive := findEnv_live hlive hfind
      simp only
      rw [mayEnd_bind, mayEnd_modify, mayEnd_pure]
      exact ⟨h.setEnv helive.2 hnot rfl, Or.inr ⟨e, st, rfl, rfl, rfl⟩⟩

/-- What `sys_env_set_pgfault_upcall` has done: nothing, or it has set the upcall. -/
theorem sysEnvSetPgfaultUpcall_done (h : Wf avail held s) (hcur : s.curenv = some cur)
    (hlive : s.Live cur) (envid func : Word) :
  (sysEnvSetPgfaultUpcall envid func).MayEnd s (fun _ s' => Wf avail held s' ∧ (s' = s ∨
      ∃ e, s.Live e ∧ s' = s.setEnv e { s.envs e with envPgfaultUpcall := func }))
    (fun _ => False)
  := by
  rw [sysEnvSetPgfaultUpcall, mayEnd_of_bind_eq (envid2env_eq hcur envid true)]
  cases hfind : s.findEnv cur envid true with
  | none =>
      rw [mayEnd_pure]
      exact ⟨h, Or.inl rfl⟩
  | some e =>
      have helive := findEnv_live hlive hfind
      simp only
      rw [mayEnd_bind, mayEnd_modify, mayEnd_pure]
      exact ⟨h.setEnv helive.2 helive.2 rfl, Or.inr ⟨e, helive, rfl⟩⟩

/-! ### Giving up the processor -/

theorem sysYield_done (h : Wf avail held s) :
  sysYield.MayEnd s (fun _ _ => False) (fun s' => Wf avail held s' ∧ Resumed s s')
  := schedYield_resumed.mono (fun _ _ h => h) (fun _ hr => ⟨h.resumed hr, hr⟩)

/-- The kernel after the environment `cur` has asked for a message. -/
def waiting (s : Kernel) (cur : Nat) (dstva : Word) : Kernel :=
  s.setEnv cur { s.envs cur with
    envIpcDstva := if dstva.toNat ≥ UTOP then BitVec.ofNat 32 KERNBASE else dstva
    envIpcRecving := true
    envStatus := .ENV_NOT_RUNNABLE
    envTf := { (s.envs cur).envTf with
      tfRegs := { (s.envs cur).envTf.tfRegs with regEax := 0 } } }

theorem Wf.waiting (h : Wf avail held s) (hlive : s.Live cur) (dstva : Word) :
  Wf avail held (waiting s cur dstva)
  := by
  apply h.setEnv hlive.2
  · simp
  · rfl

/-- Waiting for a message is to wait in the state `waiting`. -/
theorem sysIpcRecv_waits (hcur : s.curenv = some cur) {dstva : Word}
    (hva : ¬ (dstva.toNat < UTOP ∧ dstva.toNat % PGSIZE ≠ 0)) :
  sysIpcRecv dstva s = (do sysYield; pure 0 : Prog Kernel Word) (waiting s cur dstva)
  := by
  have hwait : (s.setEnv cur { s.envs cur with
        envIpcDstva := if dstva.toNat ≥ UTOP then BitVec.ofNat 32 KERNBASE else dstva }).setEnv cur
      { (s.setEnv cur { s.envs cur with
          envIpcDstva := if dstva.toNat ≥ UTOP then BitVec.ofNat 32 KERNBASE else dstva }).envs cur
        with
        envIpcRecving := true
        envStatus := .ENV_NOT_RUNNABLE
        envTf := { ((s.setEnv cur { s.envs cur with
            envIpcDstva := if dstva.toNat ≥ UTOP then BitVec.ofNat 32 KERNBASE else dstva }).envs
              cur).envTf with
          tfRegs := { ((s.setEnv cur { s.envs cur with
              envIpcDstva := if dstva.toNat ≥ UTOP then BitVec.ofNat 32 KERNBASE else dstva }).envs
                cur).envTf.tfRegs with regEax := 0 } } } = Root.waiting s cur dstva := by
    rw [s.setEnv_envs_self]
    simp only [Kernel.setEnv, Function.update_idem, Root.waiting]
  rw [sysIpcRecv, bind_of_eq (curenv_eq hcur), if_neg hva, modify_bind, modify_bind, hwait]

theorem sysIpcRecv_done (h : Wf avail held s) (hcur : s.curenv = some cur) (hlive : s.Live cur)
    (dstva : Word) :
  (sysIpcRecv dstva).MayEnd s (fun _ s' => s' = s)
    (fun s' => Wf avail held s' ∧ Resumed (waiting s cur dstva) s')
  := by
  by_cases hva : dstva.toNat < UTOP ∧ dstva.toNat % PGSIZE ≠ 0
  · rw [sysIpcRecv, mayEnd_of_bind_eq (curenv_eq hcur), if_pos hva, mayEnd_pure]
  · rw [mayEnd_congr (sysIpcRecv_waits hcur hva), mayEnd_bind]
    apply (sysYield_done (h.waiting hlive dstva)).mono
    · exact fun _ _ h => h.elim
    · exact fun _ h => h

end Root

end Jos
