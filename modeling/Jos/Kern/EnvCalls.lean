import Jos.Kern.Ipc
import Jos.Kern.Privilege

/-!
# What a system call does to the environments

For each system call the changes it may make to the array `envs`, the list of free
environments and the current environment, whatever the state of physical memory.  A
system call that does not return has given up the processor: it left the kernel for
another environment, after freeing the current one or not.
-/

namespace Jos

open Bytes Prog

variable {s s' s'' : Kernel} {fl : List Nat} {cur : Nat}

/-! ### Freeing and creating environments -/

/-- Switching to a live environment keeps the list of free ones. -/
theorem EnvInv.running (h : EnvInv fl s) {e : Nat} (hlive : (s.envs e).envStatus ≠ .ENV_FREE) :
  EnvInv fl (s.running e)
  := by
  apply Kernel.running_keeps (P := EnvInv fl) (fun h => h.setEnv) _ h hlive
  intro s c h
  exact h.congr (by rfl) (by rfl)

/-- Leaving the environments alone keeps the list of free ones. -/
theorem EnvInv.memOnly (h : EnvInv fl s) (hmem : MemOnly s s') :
  EnvInv fl s'
  := h.congr hmem.envs hmem.envFreeList

theorem EnvInv.freed {e : Nat} (h : EnvInv fl s) (hlive : s.Live e) (hfreed : EnvFreed e s s') :
  EnvInv (e :: fl) s'
  := by
  have hlive' : s.Live (⟨e, hlive.1⟩ : Fin NENV) := hlive
  exact h.free hlive' hfreed.envs hfreed.envFreeList

/-- An environment that is set up was free. -/
theorem EnvMade.free {e : Nat} {type : EnvType} {parentId : Word}
    (h : EnvMade e type parentId s s') (hi : EnvInv fl s) :
  (s.envs e).envStatus = .ENV_FREE ∧ ∃ fl', EnvInv fl' s'
  := by
  cases fl with
  | nil =>
      have hhead := hi.chain.1
      rw [h.head] at hhead
      obtain rfl := Option.some.inj hhead
      exact (Nat.lt_irrefl _ h.lt).elim
  | cons e' fl =>
      have hhead := hi.chain.1
      rw [h.head] at hhead
      obtain rfl := Option.some.inj hhead
      obtain ⟨p, henvs⟩ := h.envs
      exact ⟨((hi.mem_free e).mp List.mem_cons_self).2, fl, hi.alloc h.lt henvs h.envFreeList⟩

/-! ### System calls that return -/

/-- What the system call `sys` of the environment `cur` has done to the environments when it
returns. -/
inductive SysReturned (cur : Nat) (a1 a2 a4 : Word) (s : Kernel) : Syscall → Word → Kernel → Prop
  /-- Nothing.  A message was neither sent nor asked for. -/
  | quiet {sys : Syscall} {r : Word} {s' : Kernel} (hmem : MemOnly s s')
    (hsend : sys = .SYS_ipc_try_send → r ≠ 0 ∧ (r = -E_IPC_NOT_RECV ↔
      ∃ e, s.findEnv cur a1 false = some e ∧ (s.envs e).envIpcRecving = false))
    (hrecv : sys = .SYS_ipc_recv → r ≠ 0) :
    SysReturned cur a1 a2 a4 s sys r s'
  | status {e : Nat} {st : EnvStatus} (hfind : s.findEnv cur a1 true = some e)
    (hst : statusOfWord a2 = some st) :
    SysReturned cur a1 a2 a4 s .SYS_env_set_status 0
      (s.setEnv e { s.envs e with envStatus := st })
  | trapframe {e : Nat} {s1 : Kernel} (tf : Trapframe) (hfind : s.findEnv cur a1 true = some e)
    (hmem : MemOnly s s1) :
    SysReturned cur a1 a2 a4 s .SYS_env_set_trapframe 0
      (s1.setEnv e { s1.envs e with envTf := tf })
  | pgfaultUpcall {e : Nat} (hfind : s.findEnv cur a1 true = some e) :
    SysReturned cur a1 a2 a4 s .SYS_env_set_pgfault_upcall 0
      (s.setEnv e { s.envs e with envPgfaultUpcall := a2 })
  | dying {e : Nat} (hfind : s.findEnv cur a1 true = some e)
    (hst : (s.envs e).envStatus = .ENV_RUNNING) (hne : e ≠ cur) :
    SysReturned cur a1 a2 a4 s .SYS_env_destroy 0
      (s.setEnv e { s.envs e with envStatus := .ENV_DYING })
  | freed {e : Nat} {s' : Kernel} (hfind : s.findEnv cur a1 true = some e) (hne : e ≠ cur)
    (hfreed : EnvFreed e s s') :
    SysReturned cur a1 a2 a4 s .SYS_env_destroy 0 s'
  | created {sys : Syscall} {e : Nat} {type : EnvType} {s1 : Kernel} (tf : Trapframe)
    (hsys : sys = .SYS_exofork ∨ sys = .SYS_env_mkguest)
    (hmade : EnvMade e type (s.envs cur).envId s s1) :
    SysReturned cur a1 a2 a4 s sys (s1.envs e).envId
      (s1.setEnv e { s1.envs e with envTf := tf, envStatus := .ENV_NOT_RUNNABLE })
  | sent {e : Nat} {s1 : Kernel} (hfind : s.findEnv cur a1 false = some e)
    (hrecv : (s.envs e).envIpcRecving = true) (hmem : MemOnly s s1) :
    SysReturned cur a1 a2 a4 s .SYS_ipc_try_send 0 (s1.delivered cur e a2 a4)
  | received :
    SysReturned cur a1 a2 a4 s .SYS_ipc_recv 0 (s.setEnv cur { s.envs cur with
      envIpcDstva := a1
      envIpcRecving := true
      envIpcValue := 0
      envIpcFrom := 0
      envIpcPerm := 0
      envStatus := .ENV_NOT_RUNNABLE })

/-- What a system call of the environment `cur` that does not return has done: it gave up
the processor, or the environment was freed. -/
inductive SysLeft (cur : Nat) (s : Kernel) : Kernel → Prop
  | yield {s' : Kernel} (hres : Resumed s s') : SysLeft cur s s'
  | destroyed {s0 s1 s' : Kernel} (hmem : MemOnly s s0) (hfreed : EnvFreed cur s0 s1)
    (hres : Resumed { s1 with curenv := none } s') :
    SysLeft cur s s'

theorem SysReturned.curenv {a1 a2 a4 : Word} {sys : Syscall} {r : Word}
    (h : SysReturned cur a1 a2 a4 s sys r s') :
  s'.curenv = s.curenv
  := by
  cases h with
  | quiet hmem => exact hmem.curenv
  | status => rfl
  | trapframe _ _ hmem => exact hmem.curenv
  | pgfaultUpcall => rfl
  | dying => rfl
  | freed _ _ hfreed => exact hfreed.curenv
  | created _ _ hmade => exact hmade.curenv
  | sent _ _ hmem => exact hmem.curenv
  | received => rfl

theorem statusOfWord_ne_free {w : Word} {st : EnvStatus} (h : statusOfWord w = some st) :
  st ≠ .ENV_FREE
  := by
  rintro rfl
  unfold statusOfWord at h
  split at h
  · cases h
  · split at h
    · cases h
    · cases h

/-- The environment that made a system call that returns is still there. -/
theorem SysReturned.live {a1 a2 a4 : Word} {sys : Syscall} {r : Word}
    (h : SysReturned cur a1 a2 a4 s sys r s') (hi : EnvInv fl s) (hlive : s.Live cur) :
  s'.Live cur
  := by
  have hset : ∀ {s1 : Kernel} {e : Nat} {env : Env}, (s1.envs cur).envStatus ≠ .ENV_FREE →
      env.envStatus ≠ .ENV_FREE → (s1.setEnv e env).Live cur := by
    intro s1 e env hs1 hst
    refine ⟨hlive.1, ?_⟩
    by_cases he : cur = e
    · rw [he, Kernel.setEnv_envs_self]
      exact hst
    · rw [Kernel.setEnv_envs_of_ne _ _ he]
      exact hs1
  cases h with
  | quiet hmem =>
      rw [Kernel.Live, hmem.envs]
      exact hlive
  | status hfind hst => exact hset hlive.2 (statusOfWord_ne_free hst)
  | trapframe tf hfind hmem =>
      apply hset
      · rw [hmem.envs]
        exact hlive.2
      · rw [hmem.envs]
        exact (findEnv_live hlive hfind).2
  | pgfaultUpcall hfind => exact hset hlive.2 (findEnv_live hlive hfind).2
  | dying => exact hset hlive.2 (by simp)
  | freed hfind hne hfreed =>
      rw [Kernel.Live, hfreed.envs, Function.update_of_ne hne.symm]
      exact hlive
  | created tf hsys hmade =>
      obtain ⟨p, henvs⟩ := hmade.envs
      apply hset
      · rw [henvs, Function.update_of_ne]
        · exact hlive.2
        · rintro rfl
          exact hlive.2 (hmade.free hi).1
      · simp
  | sent hfind hrecv hmem =>
      apply hset
      · rw [hmem.envs]
        exact hlive.2
      · simp
  | received => exact hset hlive.2 (by simp)

/-- Destroying the current environment frees it and leaves the kernel. -/
theorem envDestroy_freed {e : Nat} (hcur : s.curenv = some e) :
  (envDestroy e).MayEnd s (fun _ _ => False)
    (fun s' => ∃ s1, EnvFreed e s s1 ∧ Resumed { s1 with curenv := none } s')
  := by
  rw [envDestroy, mayEnd_bind, mayEnd_get, mayEnd_ite]
  constructor
  · rintro ⟨-, hne⟩
    exact (hne hcur).elim
  · intro _
    rw [mayEnd_bind]
    apply (envFree_freed e).mono _ (fun _ h => h.elim)
    intro _ s1 h1
    rw [mayEnd_bind, mayEnd_get, mayEnd_ite]
    constructor
    · intro _
      rw [mayEnd_bind, mayEnd_modify]
      exact schedYield_resumed.mono (fun _ _ h => h) (fun s' h => ⟨s1, h1, h⟩)
    · intro hne
      exact (hne (h1.curenv.trans hcur)).elim

/-- Destroying another environment marks it or frees it. -/
theorem envDestroy_other {e : Nat} (hcur : s.curenv ≠ some e) :
  (envDestroy e).MayEnd s (fun _ s' => EnvFreed e s s' ∨
    ((s.envs e).envStatus = .ENV_RUNNING
      ∧ s' = s.setEnv e { s.envs e with envStatus := .ENV_DYING })) (fun _ => False)
  := by
  rw [envDestroy, mayEnd_bind, mayEnd_get, mayEnd_ite]
  constructor
  · rintro ⟨hrun, -⟩
    rw [mayEnd_modify]
    exact Or.inr ⟨hrun, rfl⟩
  · intro _
    rw [mayEnd_bind]
    apply (envFree_freed e).mono _ (fun _ h => h.elim)
    intro _ s1 h1
    rw [mayEnd_bind, mayEnd_get, mayEnd_ite]
    constructor
    · intro hcur'
      exact (hcur (h1.curenv.symm.trans hcur')).elim
    · intro _
      rw [mayEnd_pure]
      exact Or.inl h1

/-- A program that leaves the environments alone is no message. -/
theorem SysReturned.of_keeps {m : Prog Kernel Word} {sys : Syscall} {a1 a2 a4 : Word}
    (h : Keeps MemOnly m) (hsend : sys ≠ .SYS_ipc_try_send) (hrecv : sys ≠ .SYS_ipc_recv) :
  m.MayEnd s (SysReturned cur a1 a2 a4 s sys) (SysLeft cur s)
  := by
  apply (h s).mono _ (fun _ h => h.elim)
  intro r s' hmem
  exact .quiet hmem (fun h => (hsend h).elim) (fun h => (hrecv h).elim)

theorem SysReturned.refl {sys : Syscall} {a1 a2 a4 : Word} (r : Word)
    (hsend : sys ≠ .SYS_ipc_try_send) (hrecv : sys ≠ .SYS_ipc_recv) :
  SysReturned cur a1 a2 a4 s sys r s
  := .quiet (MemOnly.composes.refl s) (fun h => (hsend h).elim) (fun h => (hrecv h).elim)

section Calls

variable (hcur : s.curenv = some cur) {a1 a2 a3 a4 a5 : Word}
include hcur

theorem sysCputs_returned :
  (do sysCputs a1 a2; pure 0 : Prog Kernel Word).MayEnd s
    (SysReturned cur a1 a2 a4 s .SYS_cputs) (SysLeft cur s)
  := by
  rw [mayEnd_bind, sysCputs, mayEnd_of_bind_eq (curenv_eq hcur), mayEnd_bind, userMemAssert,
    mayEnd_bind, mayEnd_get, mayEnd_bind, mayEnd_orElse]
  refine ⟨?_, fun _ => mayEnd_fault 0⟩
  intro pgdir _
  rw [mayEnd_bind]
  apply (MemOnly.userMemCheck _ _ _ _ s).mono _ (fun _ h => h.elim)
  intro r s1 h1
  rw [mayEnd_ite]
  constructor
  · intro _
    have hcur1 : s1.curenv = some cur := h1.curenv.trans hcur
    apply (envDestroy_freed hcur1).mono (fun _ _ h => h.elim)
    rintro s' ⟨s2, hfreed, hres⟩
    exact .destroyed h1 hfreed hres
  · intro _
    rw [mayEnd_pure]
    apply ((MemOnly.cprintfString _ _).after MemOnly.composes h1).mono _ (fun _ h => h.elim)
    intro _ s2 h2
    rw [mayEnd_pure]
    exact .quiet h2 (by simp) (by simp)

theorem sysGetenvid_returned :
  sysGetenvid.MayEnd s (SysReturned cur a1 a2 a4 s .SYS_getenvid) (SysLeft cur s)
  := by
  rw [sysGetenvid, mayEnd_of_bind_eq (curenv_eq hcur), mayEnd_bind, mayEnd_get, mayEnd_pure]
  exact .refl _ (by simp) (by simp)

theorem sysEnvDestroy_returned :
  (do let _ ← sysEnvDestroy a1; pure 0 : Prog Kernel Word).MayEnd s
    (SysReturned cur a1 a2 a4 s .SYS_env_destroy) (SysLeft cur s)
  := by
  rw [mayEnd_bind, sysEnvDestroy, mayEnd_of_bind_eq (envid2env_eq hcur a1 true)]
  cases hfind : s.findEnv cur a1 true with
  | none =>
      simp only
      rw [mayEnd_pure, mayEnd_pure]
      exact .refl 0 (by simp) (by simp)
  | some e =>
      simp only
      rw [mayEnd_bind]
      by_cases he : e = cur
      · rw [he]
        apply (envDestroy_freed hcur).mono (fun _ _ h => h.elim)
        rintro s' ⟨s1, hfreed, hres⟩
        exact .destroyed (MemOnly.composes.refl s) hfreed hres
      · have hne : s.curenv ≠ some e := by
          rw [hcur]
          exact fun h => he (Option.some.inj h).symm
        apply (envDestroy_other hne).mono _ (fun _ h => h.elim)
        rintro _ s' (hfreed | ⟨hst, rfl⟩)
        · rw [mayEnd_pure, mayEnd_pure]
          exact .freed hfind he hfreed
        · rw [mayEnd_pure, mayEnd_pure]
          exact .dying hfind hst he

theorem sysEnvSetStatus_returned :
  (sysEnvSetStatus a1 a2).MayEnd s
    (SysReturned cur a1 a2 a4 s .SYS_env_set_status) (SysLeft cur s)
  := by
  unfold sysEnvSetStatus
  cases hst : statusOfWord a2 with
  | none => exact mayEnd_pure _ |>.mpr (.refl _ (by simp) (by simp))
  | some st =>
      simp only
      rw [mayEnd_of_bind_eq (envid2env_eq hcur a1 true)]
      cases hfind : s.findEnv cur a1 true with
      | none => exact mayEnd_pure _ |>.mpr (.refl _ (by simp) (by simp))
      | some e =>
          simp only
          rw [mayEnd_bind, mayEnd_modify, mayEnd_pure]
          exact .status hfind hst

theorem sysEnvSetPgfaultUpcall_returned :
  (sysEnvSetPgfaultUpcall a1 a2).MayEnd s
    (SysReturned cur a1 a2 a4 s .SYS_env_set_pgfault_upcall) (SysLeft cur s)
  := by
  rw [sysEnvSetPgfaultUpcall, mayEnd_of_bind_eq (envid2env_eq hcur a1 true)]
  cases hfind : s.findEnv cur a1 true with
  | none => exact mayEnd_pure _ |>.mpr (.refl _ (by simp) (by simp))
  | some e =>
      simp only
      rw [mayEnd_ite]
      refine ⟨fun _ => mayEnd_pure _ |>.mpr (.refl _ (by simp) (by simp)), ?_⟩
      intro _
      rw [mayEnd_bind, mayEnd_modify, mayEnd_pure]
      exact .pgfaultUpcall hfind

theorem sysEnvSetTrapframe_returned :
  (sysEnvSetTrapframe a1 a2).MayEnd s
    (SysReturned cur a1 a2 a4 s .SYS_env_set_trapframe) (SysLeft cur s)
  := by
  rw [sysEnvSetTrapframe, mayEnd_of_bind_eq (envid2env_eq hcur a1 true)]
  cases hfind : s.findEnv cur a1 true with
  | none => exact mayEnd_pure _ |>.mpr (.refl _ (by simp) (by simp))
  | some e =>
      simp only
      rw [mayEnd_bind]
      apply (kernLoad32_reads (a2 + 48)).mono _ (fun _ h => h.elim)
      rintro eip s1 ⟨h1, -⟩
      rw [mayEnd_ite]
      constructor
      · intro _
        exact mayEnd_pure _ |>.mpr (.quiet h1.memOnly (by simp) (by simp))
      · intro _
        rw [mayEnd_bind]
        apply (kernLoadWords_reads a2 17).mono _ (fun _ h => h.elim)
        rintro ws s2 ⟨h2, -⟩
        rw [mayEnd_bind, mayEnd_modify, mayEnd_pure]
        exact .trapframe _ hfind (h1.trans h2).memOnly

theorem sysExofork_returned :
  (sysExofork : Prog Kernel Word).MayEnd s
    (SysReturned cur a1 a2 a4 s .SYS_exofork) (SysLeft cur s)
  := by
  rw [sysExofork, mayEnd_of_bind_eq (curenv_eq hcur), mayEnd_bind, mayEnd_get, mayEnd_bind]
  apply (envAllocType_made _ _).mono _ (fun _ h => h.elim)
  rintro r s1 (⟨e, rfl, hmade⟩ | ⟨w, rfl, hmem⟩)
  · simp only
    rw [mayEnd_bind, mayEnd_get, mayEnd_bind, mayEnd_set, mayEnd_pure]
    exact .created _ (Or.inl rfl) hmade
  · exact mayEnd_pure _ |>.mpr (.quiet hmem (by simp) (by simp))

theorem sysEnvMkguest_returned :
  (sysEnvMkguest a1 a2).MayEnd s
    (SysReturned cur a1 a2 a4 s .SYS_env_mkguest) (SysLeft cur s)
  := by
  rw [sysEnvMkguest, mayEnd_of_bind_eq (curenv_eq hcur), mayEnd_bind, mayEnd_get, mayEnd_bind]
  apply (envAllocType_made _ _).mono _ (fun _ h => h.elim)
  rintro r s1 (⟨e, rfl, hmade⟩ | ⟨w, rfl, hmem⟩)
  · simp only
    rw [mayEnd_bind, mayEnd_get, mayEnd_bind, mayEnd_set, mayEnd_pure]
    exact .created _ (Or.inr rfl) hmade
  · exact mayEnd_pure _ |>.mpr (.quiet hmem (by simp) (by simp))

omit hcur in
theorem sysYield_returned {sys : Syscall} :
  (do sysYield; pure 0 : Prog Kernel Word).MayEnd s
    (SysReturned cur a1 a2 a4 s sys) (SysLeft cur s)
  := by
  rw [mayEnd_bind]
  exact schedYield_resumed.mono (fun _ _ h => h.elim) (fun _ h => .yield h)

theorem sysIpcRecv_returned :
  (sysIpcRecv a1).MayEnd s (SysReturned cur a1 a2 a4 s .SYS_ipc_recv) (SysLeft cur s)
  := by
  rw [sysIpcRecv, mayEnd_ite]
  constructor
  · intro _
    exact mayEnd_pure _ |>.mpr (.quiet (MemOnly.composes.refl s) (by simp) (fun _ => by decide))
  · intro _
    rw [mayEnd_of_bind_eq (curenv_eq hcur), mayEnd_bind, mayEnd_modify, mayEnd_pure]
    exact .received

/-- A message that is recorded was sent. -/
theorem ipcReceive_returned {e : Nat} {s1 : Kernel} (hfind : s.findEnv cur a1 false = some e)
    (hrecv : (s.envs e).envIpcRecving = true) (hmem : MemOnly s s1) :
  (ipcReceive e a2 a4).MayEnd s1 (SysReturned cur a1 a2 a4 s .SYS_ipc_try_send) (SysLeft cur s)
  := by
  have hcur1 : s1.curenv = some cur := hmem.curenv.trans hcur
  rw [ipcReceive, mayEnd_of_bind_eq (curenv_eq hcur1), mayEnd_bind, mayEnd_modify, mayEnd_pure]
  exact .sent hfind hrecv hmem

theorem sysIpcTrySend_returned :
  (sysIpcTrySend a1 a2 a3 a4).MayEnd s (SysReturned cur a1 a2 a4 s .SYS_ipc_try_send)
    (SysLeft cur s)
  := by
  rw [sysIpcTrySend, mayEnd_of_bind_eq (envid2env_eq hcur a1 false)]
  cases hfind : s.findEnv cur a1 false with
  | none =>
      refine mayEnd_pure _ |>.mpr (.quiet (MemOnly.composes.refl s) (fun _ => ⟨by decide, ?_⟩)
        (by simp))
      rw [hfind]
      constructor
      · exact fun h => absurd h (by decide)
      · rintro ⟨e, he, -⟩
        cases he
  | some e =>
      simp only
      rw [mayEnd_bind, mayEnd_get, mayEnd_ite]
      constructor
      · intro hrecv
        refine mayEnd_pure _ |>.mpr (.quiet (MemOnly.composes.refl s) (fun _ => ⟨by decide, ?_⟩)
          (by simp))
        exact ⟨fun _ => ⟨e, hfind, hrecv⟩, fun _ => rfl⟩
      intro hnot
      have hrecv : (s.envs e).envIpcRecving = true := by
        simpa using hnot
      -- an error other than that the receiver does not wait
      have hfail : ∀ (r : Word) {s' : Kernel}, r ≠ 0 → r ≠ -E_IPC_NOT_RECV → MemOnly s s' →
          SysReturned cur a1 a2 a4 s .SYS_ipc_try_send r s' := by
        intro r s' h0 hr hmem
        refine .quiet hmem (fun _ => ⟨h0, ?_⟩) (by simp)
        constructor
        · exact fun h => (hr h).elim
        · rintro ⟨e', he', hrecv'⟩
          rw [hfind] at he'
          obtain rfl := Option.some.inj he'
          rw [hrecv] at hrecv'
          cases hrecv'
      rw [mayEnd_ite]
      refine ⟨?_, fun _ => ipcReceive_returned hcur hfind hrecv (MemOnly.composes.refl s)⟩
      intro _
      rw [mayEnd_bind]
      apply (MemOnly.curPgdir s).mono _ (fun _ h => h.elim)
      intro pgdir s1 h1
      rw [mayEnd_bind]
      apply ((MemOnly.pageLookup _ _).after MemOnly.composes h1).mono _ (fun _ h => h.elim)
      intro r s2 h2
      cases r with
      | none => exact mayEnd_pure _ |>.mpr (hfail _ (by decide) (by decide) h2)
      | some r =>
          obtain ⟨page, pte⟩ := r
          rw [ipcSendPage, mayEnd_bind, mayEnd_get, mayEnd_ite]
          refine ⟨fun _ => mayEnd_pure _ |>.mpr (hfail _ (by decide) (by decide) h2), ?_⟩
          intro _
          rw [mayEnd_bind]
          apply ((MemOnly.envPgdirOf e).after MemOnly.composes h2).mono _ (fun _ h => h.elim)
          intro epgdir s3 h3
          rw [mayEnd_bind]
          apply ((MemOnly.pageInsert _ _ _ _).after MemOnly.composes h3).mono _ (fun _ h => h.elim)
          intro r s4 h4
          rw [mayEnd_ite]
          refine ⟨fun _ => mayEnd_pure _ |>.mpr (hfail _ (by decide) (by decide) h4), ?_⟩
          intro _
          exact ipcReceive_returned hcur hfind hrecv h4

/-- What a system call of the current environment does to the environments. -/
theorem syscall_returned (syscallno a1 a2 a3 a4 a5 : Word) :
  (syscall syscallno a1 a2 a3 a4 a5).MayEnd s (fun r s' => ∃ sys,
    Syscall.ofWord syscallno = some sys ∧ SysReturned cur a1 a2 a4 s sys r s') (SysLeft cur s)
  := by
  unfold syscall
  cases Syscall.ofWord syscallno with
  | none => exact mayEnd_panic _
  | some sys =>
      have hsys : ∀ {m : Prog Kernel Word},
          m.MayEnd s (SysReturned cur a1 a2 a4 s sys) (SysLeft cur s) →
          m.MayEnd s (fun r s' => ∃ sys', some sys = some sys' ∧
            SysReturned cur a1 a2 a4 s sys' r s') (SysLeft cur s) :=
        fun h => h.mono (fun _ _ h' => ⟨sys, rfl, h'⟩) (fun _ h' => h')
      cases sys with
      | SYS_cputs => exact hsys (sysCputs_returned hcur)
      | SYS_cgetc => exact hsys (SysReturned.of_keeps MemOnly.consGetc (by simp) (by simp))
      | SYS_getenvid => exact hsys (sysGetenvid_returned hcur)
      | SYS_env_destroy => exact hsys (sysEnvDestroy_returned hcur)
      | SYS_page_alloc =>
          exact hsys (SysReturned.of_keeps (sysPageAlloc_keeps a1 a2 a3) (by simp) (by simp))
      | SYS_page_map =>
          exact hsys (SysReturned.of_keeps (sysPageMap_keeps a1 a2 a3 a4 a5) (by simp) (by simp))
      | SYS_page_unmap => exact hsys (SysReturned.of_keeps (sysPageUnmap_keeps a1 a2) (by simp) (by simp))
      | SYS_exofork => exact hsys (sysExofork_returned hcur)
      | SYS_env_set_status => exact hsys (sysEnvSetStatus_returned hcur)
      | SYS_env_set_trapframe => exact hsys (sysEnvSetTrapframe_returned hcur)
      | SYS_env_set_pgfault_upcall => exact hsys (sysEnvSetPgfaultUpcall_returned hcur)
      | SYS_yield => exact hsys sysYield_returned
      | SYS_ipc_try_send => exact hsys (sysIpcTrySend_returned hcur)
      | SYS_ipc_recv => exact hsys (sysIpcRecv_returned hcur)
      | SYS_env_mkguest => exact hsys (sysEnvMkguest_returned hcur)

end Calls

end Jos
