import Jos.Smp.Sched

/-!
# System calls and traps on several processors

Each system call keeps the invariant as long as `sys_env_set_status`, `sys_env_destroy` and
`sys_ipc_try_send` are not used on an environment that another processor is running, an
environment makes itself runnable only when there is another one to run, and the stack of one
that calls `sys_envreplace` is below `UTOP`.
-/

namespace Jos.Smp

open Bytes Prog

variable {s s' s'' : State}

/-! ### Creating environments -/

/-- What is known of a new environment. -/
structure Created (r : Except Word Nat) (s s' : State) : Prop where
  entered : Entered s'
  running : Running s'
  curenv : s'.curenv = s.curenv
  marked : Marked s s'
  created : ∀ e, r = .ok e → e < NENV ∧ s'.status e = .ENV_RUNNABLE

theorem Created.error (hs : Entered s) (hrun : Running s) (h : Alike s s') (r : Word) :
  Created (.error r) s s'
  := by
  refine ⟨h.entered hs, h.running hrun, h.curenv, h.marked, ?_⟩
  intro e he
  cases he

/-- What is true of a taken environment. -/
theorem Created.ok (hs : Entered s) (hrun : Running s) {e : Nat} {env : Env}
    (hlist : s.envFreeList = some e) (hst : env.envStatus = .ENV_RUNNABLE)
    (hid : env.envId = nextEnvId e (s.envs e).envId)
    (hlink : env.envLink = (s.envs e).envLink) :
  Created (.ok e) s { s.setEnv e env with envFreeList := ((s.setEnv e env).envs e).envLink }
  := by
  obtain ⟨hs', he, hfree⟩ := hs.alloc hrun hlist hst hid hlink
  have hnotcur : ∀ cur, s.curenv = some cur → cur ≠ e := by
    rintro cur hcur rfl
    rw [hrun cur hcur] at hfree
    cases hfree
  rw [State.envs_setEnv_self]
  refine ⟨hs', ?_, rfl, ?_, ?_⟩
  · intro cur hcur
    change (s.setEnv e env).status cur = .ENV_RUNNING
    rw [State.status_setEnv_of_ne _ _ (hnotcur cur hcur)]
    exact hrun cur hcur
  · apply Marked.setEnv
    rw [hfree]
    simp
  · intro e' he'
    cases he'
    refine ⟨he, ?_⟩
    change (s.setEnv e env).status e = .ENV_RUNNABLE
    rw [State.status_setEnv_self]
    exact hst

theorem envAlloc_ok (hs : Entered s) (hrun : Running s) (d : Decisions) (parentId : Word) :
  (envAlloc d parentId).MayEnd s (fun r s' => Created r s s') (fun _ => False)
  := by
  have hsame : Alike s s :=
    ⟨rfl, rfl, fun _ => rfl, fun _ => rfl, fun _ => rfl, rfl, rfl⟩
  rw [envAlloc, mayEnd_bind, mayEnd_get]
  split
  case h_1 => exact mayEnd_pure _ |>.mpr (.error hs hrun hsame _)
  case h_2 e hlist =>
    rw [mayEnd_ite]
    constructor
    · intro _
      exact mayEnd_pure _ |>.mpr (.error hs hrun hsame _)
    · intro _
      rw [mayEnd_bind, mayEnd_modify, mayEnd_bind, mayEnd_modify, mayEnd_pure]
      exact .ok hs hrun hlist rfl rfl rfl

theorem envGuestAlloc_ok (hs : Entered s) (hrun : Running s) (d : Decisions) (parentId : Word) :
  (envGuestAlloc d parentId).MayEnd s (fun r s' => Created r s s') (fun _ => False)
  := by
  have hsame : Alike s s :=
    ⟨rfl, rfl, fun _ => rfl, fun _ => rfl, fun _ => rfl, rfl, rfl⟩
  rw [envGuestAlloc, mayEnd_bind, mayEnd_get]
  split
  case h_1 => exact mayEnd_pure _ |>.mpr (.error hs hrun hsame _)
  case h_2 e hlist =>
    rw [mayEnd_ite]
    constructor
    · intro _
      exact mayEnd_pure _ |>.mpr (.error hs hrun hsame _)
    · intro _
      rw [mayEnd_ite]
      constructor
      · intro _
        rw [mayEnd_bind, mayEnd_modify, mayEnd_pure]
        apply Created.error hs hrun
        exact .setEnv s e rfl rfl rfl
      · intro _
        rw [mayEnd_bind, mayEnd_modify, mayEnd_bind, mayEnd_modify, mayEnd_pure]
        exact .ok hs hrun hlist rfl rfl rfl

/-- An environment that is runnable, and is not the current one, is run by no processor. -/
theorem Entered.settable (hs : Entered s) (hrun : Running s) {e : Nat} {st : EnvStatus}
    (he : s.status e = .ENV_RUNNABLE) (hst : st ≠ .ENV_FREE) :
  Settable s e st
  := by
  have hfree : s.status e ≠ .ENV_FREE := by
    rw [he]
    simp
  refine ⟨⟨hst, hfree⟩, ?_, ?_⟩
  · intro c hcn hc
    obtain ⟨-, h | h⟩ := hs.others hcn hc
    · rw [he] at h
      cases h
    · rw [he] at h
      cases h
  · intro hcur
    rw [hrun e hcur] at he
    cases he

theorem loadIcode_safe (hs : Entered s) (d : Decisions) (e : Nat) :
  Safe (loadIcode d e) s
  := by
  rw [loadIcode]
  split
  · exact safe_modify hs (.setEnv s e rfl rfl rfl)
  · exact safe_panic _

/-! ### Writing to the current environment -/

theorem kernStores_ok (s : State) (d : Decisions) :
  (kernStores d).MayEnd s (fun _ s' => s' = s) (fun _ => False)
  := by
  rw [kernStores]
  split
  · exact mayEnd_pure () |>.mpr rfl
  · exact mayEnd_panic _

theorem curenv_ok (s : State) :
  curenv.MayEnd s (fun cur s' => s' = s ∧ s.curenv = some cur) (fun _ => False)
  := by
  rw [curenv, mayEnd_bind, mayEnd_get, mayEnd_orElse]
  exact ⟨fun _ hcur => ⟨rfl, hcur⟩, fun _ => mayEnd_fault 0⟩

/-- A word below `UTOP` is no data of the kernel. -/
theorem kernStore_ok (s : State) (d : Decisions) {va : Word} (v : Word)
    (hva : va.toNat + 4 ≤ UTOP) :
  (kernStore d va v).MayEnd s (fun _ s' => s' = s) (fun _ => False)
  := by
  rw [kernStore, if_pos hva]
  exact kernStores_ok s d

theorem pushArgs_ok (s : State) (d : Decisions) (argc argobt : Word)
    (hstack : ∀ cur, s.curenv = some cur → BelowUTOP (s.envs cur).envTf.tfEsp) :
  (pushArgs d argc argobt).MayEnd s (fun _ s' => s' = s) (fun _ => False)
  := by
  rw [pushArgs, mayEnd_bind]
  apply (curenv_ok s).mono
  · rintro cur _ ⟨rfl, hcur⟩
    obtain ⟨hlow, hhigh⟩ := hstack cur hcur
    rw [mayEnd_bind, mayEnd_get, mayEnd_bind]
    apply (kernStore_ok _ d argc (by bv_omega)).mono
    · rintro _ _ rfl
      rw [mayEnd_bind]
      apply (kernStore_ok _ d argobt (by bv_omega)).mono
      · rintro _ _ rfl
        exact mayEnd_pure _ |>.mpr rfl
      · exact fun _ h => h
    · exact fun _ h => h
  · exact fun _ h => h

/-! ### New programs -/

theorem envCreate_safe (hs : Entered s) (hrun : Running s) (d : Decisions) (type : EnvType) :
  Safe (envCreate d type) s
  := by
  rw [Safe, envCreate, mayEnd_bind]
  apply (envAlloc_ok hs hrun d 0).mono
  · intro r s1 h1
    cases r with
    | error _ => exact mayEnd_fault 0
    | ok e =>
        have hload : Safe (loadIcode d e >>= fun _ => modify (fun s => s.setEnv e
            { s.envs e with envType := type, envParentId := 0 })) s1 := by
          apply (loadIcode_safe h1.entered d e).bind
          intro _ s2 hs2 _ _
          exact safe_modify hs2 (.setEnv s2 e rfl rfl rfl)
        apply MayEnd.mono hload
        · rintro _ s' ⟨hs', hcur, hmark⟩
          exact ⟨hs', hcur.trans h1.curenv, h1.marked.trans hmark⟩
        · rintro s' ⟨hs', hmark⟩
          exact ⟨hs', h1.marked.trans hmark⟩
  · exact fun _ h => h.elim

/-! ### System calls -/

section Calls

variable (hs : Entered s) (hrun : Running s) (d : Decisions)
include hs hrun

theorem sysEnvcreate_safe :
  Safe (sysEnvcreate d) s
  := by
  apply (envCreate_safe hs hrun d .ENV_TYPE_USER).bind
  exact fun _ s' hs' _ _ => safe_pure hs' 1

omit hs hrun in
/-- A new environment that must not run before its parent says so. -/
theorem initNew_safe {m : Prog State (Except Word Nat)} {f : Env → Env}
    (hm : m.MayEnd s (fun r s' => Created r s s') (fun _ => False))
    (hf : ∀ env, (f env).envStatus = .ENV_NOT_RUNNABLE ∧ (f env).envId = env.envId
      ∧ (f env).envLink = env.envLink) :
  Safe (m >>= initNew f) s
  := by
  rw [Safe, mayEnd_bind]
  apply hm.mono
  · intro r s1 h1
    cases r with
    | error r =>
        rw [initNew, mayEnd_pure]
        exact ⟨h1.entered, h1.curenv, h1.marked⟩
    | ok e =>
        obtain ⟨he, hst⟩ := h1.created e rfl
        obtain ⟨hfst, hfid, hflink⟩ := hf (s1.envs e)
        have hset : Settable s1 e (f (s1.envs e)).envStatus := by
          apply h1.entered.settable h1.running hst
          rw [hfst]
          simp
        have hmark : Marked s1 (s1.setEnv e (f (s1.envs e))) := by
          apply Marked.setEnv
          rw [hst]
          simp
        rw [initNew, mayEnd_bind, mayEnd_modify, mayEnd_bind, mayEnd_get, mayEnd_pure]
        exact ⟨h1.entered.setEnv h1.running hset hfid hflink, h1.curenv, h1.marked.trans hmark⟩
  · exact fun _ h => h.elim

theorem sysEnvMakeguest_safe (entryloc : Word) :
  Safe (sysEnvMakeguest d entryloc) s
  := by
  apply safe_curenv_bind
  intro cur _
  apply safe_get_bind
  apply initNew_safe (envGuestAlloc_ok hs hrun d _)
  exact fun _ => ⟨rfl, rfl, rfl⟩

theorem sysExofork_safe :
  Safe (sysExofork d) s
  := by
  apply safe_curenv_bind
  intro cur _
  apply safe_get_bind
  apply initNew_safe (envAlloc_ok hs hrun d _)
  exact fun _ => ⟨rfl, rfl, rfl⟩

omit hrun in
theorem envReplace_safe (type : EnvType) (argc argobt : Word)
    (hstack : ∀ cur, s.curenv = some cur → BelowUTOP (s.envs cur).envTf.tfEsp) :
  Safe (envReplace d type argc argobt) s
  := by
  apply safe_curenv_bind
  intro cur hcur
  rw [loadIcode]
  split
  · rw [Safe, mayEnd_bind, mayEnd_modify]
    obtain ⟨s1, hs1⟩ : ∃ s1, s1 = s.setEnv cur { s.envs cur with
        envTf := { (s.envs cur).envTf with tfEip := d.entry } } := ⟨_, rfl⟩
    rw [← hs1]
    have halike : Alike s s1 := by
      rw [hs1]
      exact .setEnv s cur rfl rfl rfl
    have hstack1 : ∀ cur', s1.curenv = some cur' → BelowUTOP (s1.envs cur').envTf.tfEsp := by
      intro cur' hcur'
      obtain rfl := Option.some.inj (hcur.symm.trans (halike.curenv.symm.trans hcur'))
      rw [hs1, State.envs_setEnv_self]
      exact hstack cur hcur
    have hrest : Safe (pushArgs d argc argobt >>= fun ust => curenv >>= fun cur =>
        modify (fun s => s.setEnv cur { s.envs cur with
          envTf := { (s.envs cur).envTf with tfEsp := ust }
          envType := type })) s1 := by
      rw [Safe, mayEnd_bind]
      apply (pushArgs_ok s1 d argc argobt hstack1).mono
      · intro ust s2 hs2
        rw [hs2]
        apply safe_curenv_bind
        intro cur' _
        exact safe_modify (halike.entered hs) (.setEnv s1 cur' rfl rfl rfl)
      · exact fun _ h => h.elim
    apply MayEnd.mono hrest
    · rintro _ s' ⟨hs', hcur', hmark⟩
      exact ⟨hs', hcur'.trans halike.curenv, halike.marked.trans hmark⟩
    · rintro s' ⟨hs', hmark⟩
      exact ⟨hs', halike.marked.trans hmark⟩
  · exact mayEnd_panic _

omit hrun in
theorem sysEnvreplace_safe (x args argc : Word)
    (hstack : x.toNat ≤ 6 → ∀ cur, s.curenv = some cur → BelowUTOP (s.envs cur).envTf.tfEsp) :
  Safe (sysEnvreplace d x args argc) s
  := by
  rw [sysEnvreplace]
  split
  case isTrue hx =>
    apply (envReplace_safe hs d .ENV_TYPE_USER argc args (hstack (Nat.le_of_lt hx))).bind
    exact fun _ s' hs' _ _ => safe_pure hs' 1
  case isFalse =>
    split
    case isTrue hx =>
      apply (envReplace_safe hs d .ENV_TYPE_GUEST argc args (hstack (Nat.le_of_eq hx))).bind
      exact fun _ s' hs' _ _ => safe_pure hs' 1
    case isFalse => exact safe_pure hs 1

theorem sysCputs_safe :
  Safe (sysCputs d) s
  := by
  apply safe_curenv_bind
  intro cur hcur
  rw [Safe, mayEnd_bind]
  apply (userMemAssert_ok hs d hcur).mono
  · rintro _ s' rfl
    exact safe_pure hs 0
  · exact fun _ h => h

omit hrun in
theorem sysGetenvid_safe :
  Safe sysGetenvid s
  := by
  apply safe_curenv_bind
  intro cur _
  apply safe_get_bind
  exact safe_pure hs _

theorem sysEnvDestroy_safe {cur : Nat} (hcur : s.curenv = some cur) (envid : Word)
    (h : ∀ e, s.Names envid true e → s.status e ≠ .ENV_DYING) :
  Safe (sysEnvDestroy envid) s
  := by
  apply safe_envid2env_bind
  · exact safe_pure hs _
  · intro e hname
    obtain ⟨he, hne⟩ := hs.named hname
    apply (envDestroy_safe hs hrun he hne (h e hname)).bind
    exact fun _ s' hs' _ _ => safe_pure hs' 0
  · rw [hcur]
    simp

theorem sysEnvSetStatus_safe {cur : Nat} (hcur : s.curenv = some cur) (envid status : Word)
    (h : ∀ st e, statusOf status = some st → s.Names envid true e → Settable s e st
      ∧ s.status e ≠ .ENV_DYING) :
  Safe (sysEnvSetStatus envid status) s
  := by
  rw [sysEnvSetStatus]
  split
  case h_1 => exact safe_pure hs _
  case h_2 st hst =>
    apply safe_envid2env_bind
    · exact safe_pure hs _
    · intro e hname
      obtain ⟨hset, hdying⟩ := h st e hst hname
      rw [Safe, mayEnd_bind, mayEnd_modify, mayEnd_pure]
      exact ⟨hs.setEnv hrun hset rfl rfl, rfl, .setEnv s _ hdying⟩
    · rw [hcur]
      simp

omit hrun in
theorem sysEnvSetPgfaultUpcall_safe {cur : Nat} (hcur : s.curenv = some cur) (envid func : Word) :
  Safe (sysEnvSetPgfaultUpcall envid func) s
  := by
  apply safe_envid2env_bind
  · exact safe_pure hs _
  · intro e _
    have halike : Alike s (s.setEnv e { s.envs e with envPgfaultUpcall := func }) :=
      .setEnv s e rfl rfl rfl
    apply (safe_modify hs halike).bind
    exact fun _ s' hs' _ _ => safe_pure hs' 0
  · rw [hcur]
    simp

theorem sysIpcTrySend_safe {cur : Nat} (hcur : s.curenv = some cur) (envid value srcva perm : Word)
    (h : ∀ e r, s.Names envid false e → (s.envs e).envIpcRecving = true →
      sendPage d e srcva perm s = .ok r → Settable s e .ENV_RUNNABLE ∧ s.status e ≠ .ENV_DYING) :
  Safe (sysIpcTrySend d envid value srcva perm) s
  := by
  apply safe_envid2env_bind
  · exact safe_pure hs _
  · intro e hname
    apply safe_get_bind
    split
    case isTrue => exact safe_pure hs _
    case isFalse hrecv =>
      rw [Bool.not_eq_false] at hrecv
      split
      case h_1 => exact safe_pure hs _
      case h_2 r hr =>
        obtain ⟨hset, hdying⟩ := h e r hname hrecv hr
        apply safe_curenv_bind
        intro cur' _
        rw [Safe, mayEnd_bind, mayEnd_modify, mayEnd_pure]
        exact ⟨hs.setEnv hrun hset rfl rfl, rfl, .setEnv s _ hdying⟩
  · rw [hcur]
    simp

theorem sysIpcRecv_safe (dstva : Word) :
  Safe (sysIpcRecv dstva) s
  := by
  apply safe_curenv_bind
  intro cur hcur
  obtain ⟨-, hfree, hdying⟩ := hs.current hcur
  have hyield : ∀ env : Env, env.envStatus = .ENV_NOT_RUNNABLE → env.envId = (s.envs cur).envId →
      env.envLink = (s.envs cur).envLink →
      (schedYield : Prog State Word).MayEnd (s.setEnv cur env)
        (fun _ s' => Entered s' ∧ s'.curenv = s.curenv ∧ Marked s s')
        (fun s' => Exclusive s' ∧ Marked s s') := by
    intro env hst hid hlink
    have hset : Settable s cur env.envStatus := by
      rw [hst]
      refine ⟨⟨by simp, hfree⟩, ?_, ?_⟩
      · intro c hcn hc
        exact (hcn (hs.one hc hcur)).elim
      · exact fun _ => ⟨by simp, fun h => by cases h⟩
    apply MayEnd.mono (schedYield_leaves (hs.setEnv hrun hset hid hlink))
    · exact fun _ _ h => h.elim
    · rintro s' ⟨hex, hkept⟩
      exact ⟨hex, Marked.trans (.setEnv s env hdying) hkept.marked⟩
  split
  case isTrue => exact safe_pure hs _
  case isFalse =>
    rw [Safe, mayEnd_bind, mayEnd_modify]
    apply hyield
    · rfl
    · rfl
    · rfl

end Calls

/-! ### All calls -/

/-- A call that does not reach for an environment that runs elsewhere, does not make the
current environment runnable when there is no other one to run, and runs another program only
on a stack below `UTOP`. -/
def CallOk (s : State) (d : Decisions) (syscallno a1 a2 a3 a4 : Word) : Prop :=
  (syscallno.toNat = 3 → ∀ e, s.Names a1 true e → s.status e ≠ .ENV_DYING) ∧
  (syscallno.toNat = 8 → ∀ st e, statusOf a2 = some st → s.Names a1 true e →
    Settable s e st ∧ s.status e ≠ .ENV_DYING) ∧
  (syscallno.toNat = 11 → ∀ e r, s.Names a1 false e → (s.envs e).envIpcRecving = true →
    sendPage d e a3 a4 s = .ok r → Settable s e .ENV_RUNNABLE ∧ s.status e ≠ .ENV_DYING) ∧
  (syscallno.toNat = 14 → a1.toNat ≤ 6 → ∀ cur, s.curenv = some cur →
    BelowUTOP (s.envs cur).envTf.tfEsp)

theorem syscall_safe (hs : Entered s) (hrun : Running s) (d : Decisions) {cur : Nat}
    (hcur : s.curenv = some cur) {syscallno a1 a2 a3 a4 : Word}
    (h : CallOk s d syscallno a1 a2 a3 a4) :
  Safe (syscall d syscallno a1 a2 a3 a4) s
  := by
  obtain ⟨hdestroy, hstatus, hsend, hstack⟩ := h
  rw [syscall]
  split
  case h_1 => exact sysCputs_safe hs hrun d
  case h_2 => exact safe_pure hs _
  case h_3 => exact sysGetenvid_safe hs
  case h_4 hno => exact sysEnvDestroy_safe hs hrun hcur a1 (hdestroy hno)
  case h_5 => exact safe_pure hs _
  case h_6 => exact safe_pure hs _
  case h_7 => exact safe_pure hs _
  case h_8 => exact sysExofork_safe hs hrun d
  case h_9 hno => exact sysEnvSetStatus_safe hs hrun hcur a1 a2 (hstatus hno)
  case h_10 => exact sysEnvSetPgfaultUpcall_safe hs hcur a1 a2
  case h_11 => exact (schedYield_leaves hs).safe
  case h_12 hno => exact sysIpcTrySend_safe hs hrun d hcur a1 a2 a3 a4 (hsend hno)
  case h_13 => exact sysIpcRecv_safe hs hrun a1
  case h_14 => exact sysEnvcreate_safe hs hrun d
  case h_15 hno => exact sysEnvreplace_safe hs d a1 a2 a3 (hstack hno)
  case h_16 => exact sysEnvMakeguest_safe hs hrun d a2
  case h_17 => exact safe_pure hs _

/-! ### Traps -/

theorem pageFaultHandler_safe (hs : Entered s) (hrun : Running s) (d : Decisions) (tf : Trapframe) :
  Safe (pageFaultHandler d tf) s
  := by
  rw [pageFaultHandler]
  split
  · exact safe_panic _
  · apply safe_curenv_bind
    intro cur hcur
    apply safe_get_bind
    split
    · rw [Safe, mayEnd_bind]
      apply (userMemAssert_ok hs d hcur).mono
      · rintro _ s1 rfl
        rw [mayEnd_bind]
        apply (kernStores_ok s1 d).mono
        · rintro _ s2 rfl
          rw [mayEnd_bind, mayEnd_modify]
          -- the current environment is still running
          have hgo : ∀ env : Env, Alike s2 (s2.setEnv cur env) →
              (envRun cur : Prog State Unit).MayEnd (s2.setEnv cur env)
                (fun _ s' => Entered s' ∧ s'.curenv = s2.curenv ∧ Marked s2 s')
                (fun s' => Exclusive s' ∧ Marked s2 s') := by
            intro env halike
            apply (envRun_current (halike.entered hs) (halike.curenv.trans hcur)
              (halike.running hrun cur (halike.curenv.trans hcur))).mono
            · exact fun _ _ h => h.elim
            · rintro s' ⟨hex, hkept⟩
              exact ⟨hex, halike.marked.trans hkept.marked⟩
          apply hgo
          exact .setEnv s2 cur rfl rfl rfl
        · exact fun _ h => h.elim
      · exact fun _ h => h
    · exact (envDestroy_current hs hcur).safe

theorem setEax_safe (hs : Entered s) (cur : Option Nat) (r : Word) :
  Safe (setEax cur r) s
  := by
  cases cur with
  | some cur => exact safe_modify hs (.setEnv s cur rfl rfl rfl)
  | none => exact safe_pure hs ()

/-- A trap is handled with the invariant if it is not a system call, or is one that is
allowed. -/
theorem trapDispatch_safe (hs : Entered s) (hrun : Running s) (d : Decisions) (own : Option Nat)
    {tf : Trapframe}
    (hcall : tf.tfTrapno.toNat = 48 → (∃ cur, s.curenv = some cur) ∧ CallOk s d tf.tfRegs.regEax
      tf.tfRegs.regEdx tf.tfRegs.regEcx tf.tfRegs.regEbx tf.tfRegs.regEdi) :
  Safe (trapDispatch d own tf) s
  := by
  rw [trapDispatch]
  split
  case h_1 => exact pageFaultHandler_safe hs hrun d tf
  case h_2 => exact safe_panic _
  case h_3 hno =>
    obtain ⟨⟨cur, hcur⟩, hok⟩ := hcall hno
    apply (syscall_safe hs hrun d hcur hok).bind
    exact fun r s' hs' _ _ => setEax_safe hs' own r
  case h_4 => exact safe_pure hs ()
  case h_5 => exact safe_pure hs ()
  case h_6 => exact (schedYield_leaves hs).safe
  case h_7 =>
    split
    · exact safe_panic _
    · apply safe_curenv_bind
      intro cur hcur
      exact (envDestroy_current hs hcur).safe

theorem trapReturn_leaves (hs : Entered s) :
  Leaves trapReturn s
  := by
  rw [Leaves, trapReturn, mayEnd_bind, mayEnd_get]
  split
  case h_1 cur hcur =>
    rw [mayEnd_ite]
    constructor
    · exact fun hrun => envRun_current hs hcur hrun
    · exact fun _ => schedYield_leaves hs
  case h_2 => exact schedYield_leaves hs

/-- Handling a trap and going on with some environment. -/
theorem Safe.trapReturn {m : Prog State Unit} (h : Safe m s) :
  (m >>= fun _ => trapReturn).MayEnd s (fun _ _ => False) (fun s' => Exclusive s' ∧ Marked s s')
  := by
  rw [mayEnd_bind]
  apply MayEnd.mono h
  · rintro _ s' ⟨hs', -, hmark⟩
    apply (trapReturn_leaves hs').mono
    · exact fun _ _ h => h.elim
    · rintro s'' ⟨hex, hkept⟩
      exact ⟨hex, hmark.trans hkept.marked⟩
  · exact fun _ h => h

end Jos.Smp
