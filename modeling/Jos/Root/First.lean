import Jos.Root.Machine
import Jos.Root.Overwritten

/-!
# A parent and its child in a kernel without a free page

An orderly run is followed step by step.  At boot one environment is created.  It forks a child,
makes it runnable, forks until no page is free, and yields.  The child then waits for a page at an
address for which it has no page table, and the parent goes on.
-/

namespace Jos

namespace Root

open Bytes Prog

variable {s s' : Kernel} {binary : Program → Binary} {g : Host}

/-! ### System calls of a run -/

/-- The registers are saved before a trap is handled. -/
theorem setTf_entered {cur : Nat} (hcur : g.kernel.curenv = some cur) (tf : Trapframe) :
  onKernel (setTf cur tf) g = .ok ((), { g with kernel := entered g.kernel cur tf })
  := by
  have hkernel : g.kernel.setEnv cur { g.kernel.envs cur with envTf := tf }
      = entered g.kernel cur tf := by
    rw [entered, ← hcur]
    rfl
  rw [← hkernel]
  rfl

/-- A trap for a system call is handled by its handler. -/
theorem trapDispatch_syscall {cur : Nat} {sys : Syscall} (dir : Nat) (faultVa : Word)
    (hask : Asks g.kernel cur sys) :
  trapDispatch binary dir faultVa cur g = (do
    let r ← sys.handler binary (arg1 g.kernel cur) (arg2 g.kernel cur) (arg3 g.kernel cur)
      (arg4 g.kernel cur) (arg5 g.kernel cur)
    onKernel (modify (fun s => answered s cur r)) : Prog Host Unit) g
  := by
  rw [trapDispatch, get_bind]
  simp only [hask.trapno]
  rw [if_neg (by decide), if_neg (by decide), if_pos trivial, syscall, hask.syscallno]
  rfl

section Trap

variable {cur : Nat} {tf : Trapframe} {sys : Syscall} (dir : Nat) (faultVa : Word)
  (hcur : g.kernel.curenv = some cur) (hst : (g.kernel.envs cur).envStatus = .ENV_RUNNING)
  (hask : Asks (entered g.kernel cur tf) cur sys)
include hcur hst hask

/-- The environment goes on when its system call returns. -/
theorem trap_returns {r : Word} {s' : Kernel}
    (heq : sys.handler binary (arg1 (entered g.kernel cur tf) cur)
      (arg2 (entered g.kernel cur tf) cur) (arg3 (entered g.kernel cur tf) cur)
      (arg4 (entered g.kernel cur tf) cur) (arg5 (entered g.kernel cur tf) cur)
      { g with kernel := entered g.kernel cur tf } = .ok (r, { g with kernel := s' }))
    (hcur' : s'.curenv = some cur) (hst' : (s'.envs cur).envStatus = .ENV_RUNNING) :
  trap binary dir faultVa tf g = .error (.leave { g with kernel := answered s' cur r })
  := by
  have hdispatch : trapDispatch binary dir faultVa cur { g with kernel := entered g.kernel cur tf }
      = .ok ((), { g with kernel := answered s' cur r }) := by
    rw [trapDispatch_syscall dir faultVa hask, bind_of_eq heq]
    rfl
  have hrun : ((answered s' cur r).envs cur).envStatus = .ENV_RUNNING := by
    rw [answered, s'.setEnv_envs_self]
    exact hst'
  have hsame : isCurrent (answered s' cur r) cur = true := by
    rw [isCurrent, show (answered s' cur r).curenv = some cur from hcur']
    simp
  have hafter : afterTrap (answered s' cur r) = .error (.leave (answered s' cur r)) := by
    rw [afterTrap, get_bind, show (answered s' cur r).curenv = some cur from hcur']
    simp only
    rw [if_pos hrun, envRun, get_bind, if_pos hsame]
    rfl
  rw [trap, get_bind, hcur]
  simp only
  rw [if_neg (by rw [hst]; simp), bind_of_eq (setTf_entered hcur tf), bind_of_eq hdispatch, onKernel]
  simp only [hafter]

/-- Another environment goes on when the system call gives up the processor. -/
theorem trap_leaves {s' : Kernel}
    (heq : sys.handler binary (arg1 (entered g.kernel cur tf) cur)
      (arg2 (entered g.kernel cur tf) cur) (arg3 (entered g.kernel cur tf) cur)
      (arg4 (entered g.kernel cur tf) cur) (arg5 (entered g.kernel cur tf) cur)
      { g with kernel := entered g.kernel cur tf } = .error (.leave { g with kernel := s' })) :
  trap binary dir faultVa tf g = .error (.leave { g with kernel := s' })
  := by
  have hdispatch : trapDispatch binary dir faultVa cur { g with kernel := entered g.kernel cur tf }
      = .error (.leave { g with kernel := s' }) := by
    rw [trapDispatch_syscall dir faultVa hask, bind_of_error heq]
  rw [trap, get_bind, hcur]
  simp only
  rw [if_neg (by rw [hst]; simp), bind_of_eq (setTf_entered hcur tf), bind_of_error hdispatch]

end Trap

/-! ### A run on one processor -/

/-- The processor `0` runs the environment `e`, and the others have not run any, in an orderly
run in which no environment that waits for a message is given a status. -/
structure At (m : Machine) (e : Nat) : Prop where
  reachable : Reachable (fun _ => smallImage) (fun m c ev => Orderly m c ev ∧ KeepsStatus m c ev) m
  cpuEnv : m.cpuEnv = Function.update (fun _ => none) 0 (some e)
  dir : m.kernel.pgdir e = some (m.cpuDir 0)
  lt : e < NENV
  wf : Wf (bootAvail 16) ∅ m.kernel
  fits : Fits (bootAvail 16) m.kernel
  running : (m.kernel.envs e).envStatus = .ENV_RUNNING

/-- Memory and the directories decide what is mapped. -/
theorem views_of_pgdir (hpg : ∀ e, s'.pgdir e = s.pgdir e) (hmem : s'.mem = s.mem)
    (hkern : s'.kernPgdir = s.kernPgdir) :
  (∀ e d, s'.pde e d = s.pde e d) ∧ (∀ e d t, s'.pte e d t = s.pte e d t)
    ∧ s'.slotRef = s.slotRef
  := by
  have hentry : s'.entry = s.entry := by
    funext p i
    rw [Kernel.entry, Kernel.entry, hmem]
  have hpde : ∀ e d, s'.pde e d = s.pde e d := by
    intro e d
    rw [Kernel.pde, Kernel.pde, hpg, hentry]
  have hpte : ∀ e d t, s'.pte e d t = s.pte e d t := by
    intro e d t
    rw [Kernel.pte, Kernel.pte, hpde, hentry]
  use hpde, hpte
  funext x
  cases x with
  | dir e => exact hpg e
  | table e d => exact congrArg refOf (hpde e d)
  | page e d t => exact congrArg refOf (hpte e d t)
  | kern d => rw [Kernel.slotRef, Kernel.slotRef, hentry, hkern]

theorem switchTo_mem (s : Kernel) (e : Nat) :
  (switchTo s e).mem = s.mem ∧ (switchTo s e).kernPgdir = s.kernPgdir
  := by
  rw [switchTo_frame]
  constructor
  · rfl
  · rfl

/-- A switch leaves the environments alone but for the current one and the one switched to. -/
theorem switchTo_of_ne {e e' cur : Nat} (hcur : s.curenv = some cur) (he : e' ≠ e)
    (hc : e' ≠ cur) :
  (switchTo s e).envs e' = s.envs e'
  := by
  simp only [switchTo, Kernel.setEnv, Function.update_of_ne he]
  rw [Kernel.preempted, hcur]
  simp only
  split
  · simp only [Kernel.setEnv, Function.update_of_ne hc]
  · rfl

theorem Fits.switchTo {avail : Finset Nat} (h : Fits avail s) {e : Nat} (hlive : s.Live e) :
  Fits avail (switchTo s e)
  := by
  obtain ⟨hmem, hkern⟩ := switchTo_mem s e
  obtain ⟨-, -, hslot⟩ := views_of_pgdir (switchTo_pgdir hlive) hmem hkern
  intro p hp
  rw [Kernel.refs, hslot]
  exact h p hp

/-- Pages that are not accounted for have no references. -/
theorem Fits.noOverflow {avail : Finset Nat} (h : Fits avail s) (hwf : Wf avail ∅ s) :
  NoOverflow s
  := by
  obtain ⟨l, hl⟩ := hwf.mem
  intro p
  by_cases hp : p ∈ avail
  · exact h p hp
  · have hnone : s.refs p = 0 := by
      rw [Kernel.refs, refCount.eq_zero_iff]
      exact fun x _ hx => hp (Kernel.mem_avail hl hx)
    rw [hnone]
    apply Nat.zero_le

/-- The registers of an environment that asks for a system call. -/
def asking (no a1 a2 a3 a4 : Word) : Trapframe where
  tfTrapno := T_SYSCALL
  tfCs := GD_UT ||| 3
  tfSs := GD_UD ||| 3
  tfRegs := { regEax := no, regEdx := a1, regEcx := a2, regEbx := a3, regEdi := a4 }

theorem asks_asking (s : Kernel) (cur : Nat) {no : Word} {sys : Syscall} (a1 a2 a3 a4 : Word)
    (h : Syscall.ofWord no = some sys) :
  Asks (entered s cur (asking no a1 a2 a3 a4)) cur sys
  := by
  have htf : ((entered s cur (asking no a1 a2 a3 a4)).envs cur).envTf = asking no a1 a2 a3 a4 := by
    simp [entered, Kernel.setEnv]
  constructor
  case trapno => rw [htf, asking]
  case syscallno => rw [htf, asking, h]

theorem handler_asking (s : Kernel) (cur : Nat) (sys : Syscall) (no a1 a2 a3 a4 : Word) :
  sys.handler binary (arg1 (entered s cur (asking no a1 a2 a3 a4)) cur)
    (arg2 (entered s cur (asking no a1 a2 a3 a4)) cur)
    (arg3 (entered s cur (asking no a1 a2 a3 a4)) cur)
    (arg4 (entered s cur (asking no a1 a2 a3 a4)) cur)
    (arg5 (entered s cur (asking no a1 a2 a3 a4)) cur) = sys.handler binary a1 a2 a3 a4 0
  := by
  have htf : ((entered s cur (asking no a1 a2 a3 a4)).envs cur).envTf = asking no a1 a2 a3 a4 := by
    simp [entered, Kernel.setEnv]
  simp only [arg1, arg2, arg3, arg4, arg5, htf]
  rfl

namespace At

variable {m : Machine} {e : Nat} (h : At m e)
include h

theorem live :
  m.kernel.Live e
  := by
  use h.lt
  rw [h.running]
  simp

theorem cpuEnv_self :
  m.cpuEnv 0 = some e
  := by rw [h.cpuEnv, Function.update_self]

theorem settled :
  Settled m
  := by
  constructor
  case env =>
    intro c e' hc
    rw [h.cpuEnv] at hc
    by_cases hc0 : c = 0
    · rw [hc0, Function.update_self] at hc
      obtain rfl := Option.some.inj hc
      exact h.live
    · rw [Function.update_of_ne hc0] at hc
      cases hc
  case dir =>
    intro c hc
    by_cases hc0 : c = 0
    · use ⟨e, h.lt⟩
      rw [hc0]
      exact h.dir
    · rw [h.cpuEnv, Function.update_of_ne hc0] at hc
      exact (hc rfl).elim

theorem orderlyRun :
  Reachable (fun _ => smallImage) Orderly m
  := h.reachable.mono fun _ _ _ hok => hok.1

/-- A trap for a system call but `sys_envreplace` is a step of an orderly run. -/
theorem orderly {no : Word} {sys : Syscall} (a1 a2 a3 a4 : Word)
    (hsys : Syscall.ofWord no = some sys) (hne : sys ≠ .SYS_envreplace) :
  Orderly m 0 (.trap (asking no a1 a2 a3 a4))
  := by
  constructor
  case noOverflow => exact h.fits.noOverflow h.wf
  case settled => exact h.settled
  case pushes =>
    intro tf htf cur hcur hask
    obtain rfl := Event.trap.inj htf
    have hno := (asks_asking (m.on 0).kernel cur a1 a2 a3 a4 hsys).syscallno.symm.trans hask.syscallno
    exact (hne (Option.some.inj hno)).elim

/-- A system call leaves the status of environments that wait for a message alone, if it is
`sys_env_set_status` for an environment that does not wait, or another one. -/
theorem keepsStatus {no : Word} {sys : Syscall} (a1 a2 a3 a4 : Word)
    (hsys : Syscall.ofWord no = some sys) (hkept : sys = .SYS_env_set_status → ∀ e',
      (entered m.kernel e (asking no a1 a2 a3 a4)).findEnv e a1 true = some e' →
        (m.kernel.envs e').envIpcRecving = false) :
  KeepsStatus m 0 (.trap (asking no a1 a2 a3 a4))
  := by
  intro tf htf cur hcur hask e' hfind
  obtain rfl := Event.trap.inj htf
  obtain rfl := Option.some.inj (h.cpuEnv_self.symm.trans hcur)
  have hno := (asks_asking (m.on 0).kernel e a1 a2 a3 a4 hsys).syscallno.symm.trans hask.syscallno
  have henv : ((entered (m.on 0).kernel e (asking no a1 a2 a3 a4)).envs e').envIpcRecving
      = (m.kernel.envs e').envIpcRecving := by
    by_cases he : e' = e
    · rw [he]
      simp only [entered, Kernel.setEnv, Function.update_self]
      rfl
    · simp only [entered, Kernel.setEnv, Function.update_of_ne he]
      rfl
  have harg : arg1 (entered (m.on 0).kernel e (asking no a1 a2 a3 a4)) e = a1 := by
    simp only [arg1, entered, Kernel.setEnv, Function.update_self]
    rfl
  rw [harg] at hfind
  rw [henv]
  exact hkept (Option.some.inj hno) e' hfind

/-- After a system call the processor leaves the kernel with an environment that runs. -/
theorem leaves {no : Word} {sys : Syscall} {a1 a2 a3 a4 : Word} {s' : Kernel} {e' dir : Nat}
    (hsys : Syscall.ofWord no = some sys) (hne : sys ≠ .SYS_envreplace)
    (hkept : sys = .SYS_env_set_status → ∀ e'',
      (entered m.kernel e (asking no a1 a2 a3 a4)).findEnv e a1 true = some e'' →
        (m.kernel.envs e'').envIpcRecving = false)
    (htrap : trap (fun _ => smallImage) (m.cpuDir 0) 0 (asking no a1 a2 a3 a4) (m.on 0)
      = .error (.leave { m.on 0 with kernel := s' }))
    (hcur : s'.curenv = some e') (hforce : InForce m 0 s' dir) (hpg : s'.pgdir e' = some dir)
    (hst : (s'.envs e').envStatus = .ENV_RUNNING) (hlt : e' < NENV)
    (hwf : Wf (bootAvail 16) ∅ s') (hfits : Fits (bootAvail 16) s') :
  ∃ m', Step (fun _ => smallImage) m 0 (.trap (asking no a1 a2 a3 a4)) m' ∧ At m' e'
    ∧ m'.kernel = s'
  := by
  have hcur0 : m.cpuEnv 0 = some (⟨e, h.lt⟩ : Fin NENV).val := h.cpuEnv_self
  have hstep : Step (fun _ => smallImage) m 0 (.trap (asking no a1 a2 a3 a4))
      (m.left 0 { m.on 0 with kernel := s' } dir) :=
    .trap hcur0 (show (GD_UT ||| 3) &&& 3 = 3 by decide) (show (GD_UD ||| 3) &&& 3 = 3 by decide)
      htrap hforce
  use m.left 0 { m.on 0 with kernel := s' } dir, hstep
  constructor
  · constructor
    case reachable =>
      exact h.reachable.step ⟨h.orderly a1 a2 a3 a4 hsys hne, h.keepsStatus a1 a2 a3 a4 hsys hkept⟩ hstep
    case cpuEnv =>
      simp only [Machine.left]
      rw [h.cpuEnv, Function.update_idem, hcur]
    case dir =>
      simp only [Machine.left, Machine.kernel, Function.update_self]
      exact hpg
    case lt => exact hlt
    case wf => exact hwf
    case fits => exact hfits
    case running => exact hst
  · rfl

/-- The step in which a system call returns, after which the environment goes on. -/
theorem answer_step {no : Word} {sys : Syscall} {a1 a2 a3 a4 r : Word} {s' : Kernel}
    (hsys : Syscall.ofWord no = some sys) (hne : sys ≠ .SYS_envreplace)
    (hkept : sys = .SYS_env_set_status → ∀ e'',
      (entered m.kernel e (asking no a1 a2 a3 a4)).findEnv e a1 true = some e'' →
        (m.kernel.envs e'').envIpcRecving = false)
    (heq : sys.handler (fun _ => smallImage) a1 a2 a3 a4 0
      { m.on 0 with kernel := entered m.kernel e (asking no a1 a2 a3 a4) }
        = .ok (r, { m.on 0 with kernel := s' }))
    (hcur : s'.curenv = some e) (hst : (s'.envs e).envStatus = .ENV_RUNNING)
    (hpg : s'.pgdir e = m.kernel.pgdir e) (hwf : Wf (bootAvail 16) ∅ s')
    (hfits : Fits (bootAvail 16) s') :
  ∃ m', Step (fun _ => smallImage) m 0 (.trap (asking no a1 a2 a3 a4)) m' ∧ At m' e
    ∧ m'.kernel = answered s' e r
  := by
  have hon : (m.on 0).kernel.curenv = some e := h.cpuEnv_self
  have hcur' : (answered s' e r).curenv = some e := hcur
  have hpg' : (answered s' e r).pgdir e = s'.pgdir e := by
    rw [answered, Kernel.setEnv_pgdir, Kernel.pgdir]
  apply h.leaves hsys hne hkept _ hcur' (.kept hcur' h.cpuEnv_self) _ _ h.lt
  · apply hwf.setEnv
    · rw [hst]
      simp
    · rw [hst]
      simp
    · rfl
  · intro p hp
    have hslot : (answered s' e r).slotRef = s'.slotRef := (Kernel.setEnv_views hpg').2.2.2
    rw [Kernel.refs, hslot]
    exact hfits p hp
  · apply trap_returns (m.cpuDir 0) 0 hon h.running (asks_asking _ e a1 a2 a3 a4 hsys) _ hcur hst
    rw [handler_asking]
    exact heq
  · rw [hpg', hpg, h.dir]
  · rw [answered, s'.setEnv_envs_self]
    exact hst

/-- The environment goes on when a system call returns. -/
theorem answer {no : Word} {sys : Syscall} {a1 a2 a3 a4 r : Word} {s' : Kernel}
    (hsys : Syscall.ofWord no = some sys) (hne : sys ≠ .SYS_envreplace)
    (hkept : sys = .SYS_env_set_status → ∀ e'',
      (entered m.kernel e (asking no a1 a2 a3 a4)).findEnv e a1 true = some e'' →
        (m.kernel.envs e'').envIpcRecving = false)
    (heq : sys.handler (fun _ => smallImage) a1 a2 a3 a4 0
      { m.on 0 with kernel := entered m.kernel e (asking no a1 a2 a3 a4) }
        = .ok (r, { m.on 0 with kernel := s' }))
    (hcur : s'.curenv = some e) (hst : (s'.envs e).envStatus = .ENV_RUNNING)
    (hpg : s'.pgdir e = m.kernel.pgdir e) (hwf : Wf (bootAvail 16) ∅ s')
    (hfits : Fits (bootAvail 16) s') :
  ∃ m', At m' e ∧ m'.kernel = answered s' e r
  := by
  obtain ⟨m', -, hm'⟩ := h.answer_step hsys hne hkept heq hcur hst hpg hwf hfits
  exact ⟨m', hm'⟩

/-- The step in which a system call gives up the processor, and another environment goes on. -/
theorem switch_step {no : Word} {sys : Syscall} {a1 a2 a3 a4 : Word} {s' : Kernel} {e' : Nat}
    (hsys : Syscall.ofWord no = some sys) (hne : sys ≠ .SYS_envreplace)
    (hkept : sys = .SYS_env_set_status → ∀ e'',
      (entered m.kernel e (asking no a1 a2 a3 a4)).findEnv e a1 true = some e'' →
        (m.kernel.envs e'').envIpcRecving = false)
    (heq : sys.handler (fun _ => smallImage) a1 a2 a3 a4 0
      { m.on 0 with kernel := entered m.kernel e (asking no a1 a2 a3 a4) }
        = .error (.leave { m.on 0 with kernel := switchTo s' e' }))
    (hlive : s'.Live e') (hwf : Wf (bootAvail 16) ∅ s') (hfits : Fits (bootAvail 16) s') :
  ∃ m', Step (fun _ => smallImage) m 0 (.trap (asking no a1 a2 a3 a4)) m' ∧ At m' e'
    ∧ m'.kernel = switchTo s' e'
  := by
  have hon : (m.on 0).kernel.curenv = some e := h.cpuEnv_self
  obtain ⟨fl, hfl⟩ := hwf.env
  obtain ⟨pg, -, hpg⟩ := hfl.live_pgdir hlive
  have hpg' : (switchTo s' e').pgdir e' = some pg := by
    rw [switchTo_pgdir hlive, hpg]
  have hcur : (switchTo s' e').curenv = some e' := rfl
  apply h.leaves hsys hne hkept _ hcur (.switched hcur hpg') hpg' _ hlive.1 (hwf.switchTo hlive)
    (hfits.switchTo hlive)
  · apply trap_leaves (m.cpuDir 0) 0 hon h.running (asks_asking _ e a1 a2 a3 a4 hsys)
    rw [handler_asking]
    exact heq
  · rw [switchTo]
    simp [Kernel.setEnv]

end At

/-! ### The parent -/

/-- An address of the stack. -/
def stackVa : Word := BitVec.ofNat 32 (USTACKTOP - PGSIZE)

/-- The environment `a` has a stack, and is the only one. -/
structure Single (s : Kernel) (a : Nat) : Prop where
  live : s.Live a
  envId : ENVX (s.envs a).envId = a
  stack : refOf (s.pteAt a stackVa) ≠ none
  others : ∀ e < NENV, e ≠ a → (s.envs e).envStatus = .ENV_FREE
  room : HasFree 2 s

/-- There is one environment that can run, and it is chosen. -/
theorem schedYield_only {e : Nat} (hlt : e < NENV) (hst : (s.envs e).envStatus = .ENV_RUNNABLE)
    (honly : ∀ e' < NENV, e' ≠ e → (s.envs e').envStatus ≠ .ENV_RUNNABLE)
    (hcur : isCurrent s e = false) (hpg : (s.envs e).envPgdir ≠ none) :
  (schedYield : Prog Kernel Unit) s = .error (.leave (switchTo s e))
  := by
  rw [schedYield, get_bind]
  have hmod : ∀ i, i % NENV < NENV := fun i => Nat.mod_lt i (by decide)
  generalize hfirst : (curEnvx s + 1) % NENV = first
  have hfirst' : first < NENV := by
    rw [← hfirst]
    apply hmod
  cases hfind : (List.range NENV).find? (fun i => decide
      ((s.envs ((first + i) % NENV)).envStatus = .ENV_RUNNABLE)) with
  | some i =>
      have hsel := List.find?_some hfind
      simp only [decide_eq_true_eq] at hsel
      have he : (first + i) % NENV = e := by
        by_contra hne
        exact honly _ (hmod _) hne hsel
      simp only
      rw [he, envRun_run hcur, if_neg hpg]
      rfl
  | none =>
      rw [List.find?_eq_none] at hfind
      have hi : (first + (e + NENV - first) % NENV) % NENV = e := by
        rw [Nat.add_mod_mod, Nat.add_sub_cancel' (by omega), Nat.add_mod_right, Nat.mod_eq_of_lt hlt]
      have hno := hfind ((e + NENV - first) % NENV) (List.mem_range.mpr (hmod _))
      rw [hi, hst] at hno
      simp at hno

/-- An environment is created when there is one, and room for its program. -/
theorem envCreate_ok {avail : Finset Nat} {binary : Binary} {a : Fin NENV} {p m : Nat}
    {l fl : List Nat} (hlink : Linked binary) (hs : Wf avail ∅ s) (hfits : Fits avail s)
    (hl : MemInv avail ∅ (fun _ => 0) (p :: l) s) (hfl : EnvInv (a.val :: fl) s)
    (hroom : room binary + m ≤ l.length) (type : EnvType) :
  ∃ eip esp s', envCreate binary type s = .ok ((), s') ∧ Wf avail ∅ s' ∧ Fits avail s'
    ∧ s'.envs = Function.update s.envs a
      (reloaded (newEnv (s.envs a) a p .ENV_TYPE_USER 0) eip esp type)
    ∧ s'.curenv = s.curenv ∧ HasFree (m + 1) s'
    ∧ ∀ va : Word, va.toNat / PGSIZE = USTACKTOP / PGSIZE - 1 → va.toNat < UTOP →
      Writable (s'.pteAt a va)
  := by
  obtain ⟨hnil, -⟩ | ⟨-, hnil, -⟩ | ⟨a', p', l', fl', s1, hfl', hl', heq1, hc, hl1, hfl1⟩ :=
    envAlloc_ok hl hfl 0
  · cases hnil
  · cases hnil
  · obtain ⟨ha, rfl⟩ := List.cons.inj hfl'
    obtain rfl : a = a' := Fin.ext ha
    obtain ⟨rfl, rfl⟩ := List.cons.inj hl'
    have hwf1 := hs.created hc hl1 hfl1
    have hpfree : s.OnFreeList p := ⟨_, hl.chain, List.mem_cons_self⟩
    have hmid : Midway False avail a p s1 (room binary + m) s1 :=
      ⟨hwf1, created_fits hs hfits hpfree hc, Loaded.refl hwf1 a, hc.pgdir_self,
        Or.inr ⟨_, hl1.chain, hroom⟩, rfl⟩
    obtain ⟨_, s2, heq2, hmid2, -, hreach⟩ := (loadIcode_ok hwf1 hlink hmid).returns id
    obtain ⟨eip, esp, type', hq⟩ := hmid2.loaded.quiet
    have henvs2 : s2.envs = Function.update s.envs a
        (reloaded (newEnv (s.envs a) a p .ENV_TYPE_USER 0) eip esp type') := by
      have henvs : s2.envs = Function.update s1.envs a (reloaded (s1.envs a) eip esp type') := by
        rw [hq]
      rw [henvs, hc.envs, Function.update_idem, Function.update_self]
    have henv2 : { s2.envs a with envType := type, envParentId := 0 }
        = reloaded (newEnv (s.envs a) a p .ENV_TYPE_USER 0) eip esp type := by
      rw [henvs2, Function.update_self]
      rfl
    have henv3 : { s2.envs a with envType := type, envParentId := 0 }
        = reloaded (s2.envs a) (s2.envs a).envTf.tfEip (s2.envs a).envTf.tfEsp type := by
      rw [henvs2, Function.update_self]
      rfl
    obtain ⟨hwf3, hfits3, -, hptes3, -⟩ := hmid2.reload (s2.envs a).envTf.tfEip
      (s2.envs a).envTf.tfEsp type
    rw [← henv3] at hwf3 hfits3 hptes3
    use eip, esp, s2.setEnv a { s2.envs a with envType := type, envParentId := 0 }
    constructor
    · rw [envCreate, bind_of_eq heq1]
      simp only
      rw [bind_of_eq heq2]
      rfl
    refine ⟨hwf3, hfits3, ?_, ?_, ?_, ?_⟩
    · rw [henv2, Kernel.setEnv]
      simp only
      rw [henvs2, Function.update_idem]
    · have hcur1 : s1.curenv = s.curenv := by rw [hc.quiet]
      have hcur2 : s2.curenv = s1.curenv := by rw [hq]
      rw [← hcur1, ← hcur2]
      rfl
    · exact hmid2.free.elim False.elim id
    · intro va hpage hlt
      have hw := hreach va hlt (Or.inr (Or.inr hpage))
      rw [← ptes_pteAddr _ a hlt] at hw ⊢
      rw [hptes3]
      exact hw

/-- At boot one environment is created. -/
theorem exists_booted_single :
  ∃ (s : Kernel) (a : Fin NENV) (dir : Nat), Booted ⟨{ kernel := s }, fun _ => none, fun _ => dir⟩
    ∧ Wf (bootAvail 16) ∅ s ∧ Fits (bootAvail 16) s ∧ Single s a
    ∧ (s.envs a).envStatus = .ENV_RUNNABLE ∧ s.curenv = none
  := by
  obtain ⟨s0, heq0, ⟨envs, hs0⟩, hfree⟩ := envInit_ok (bootKernel 16)
  have hafter := bootKernel_afterMemInit (n := 16) (by decide)
  obtain ⟨hwf0, hfits0, hcur0⟩ := wf_of_init hafter heq0
  obtain ⟨l0, hl0⟩ := hwf0.mem
  obtain ⟨fl0, hfl0⟩ := hwf0.env
  have hchain : l0 = 71 :: List.range' 72 15 := by
    have hboot := bootKernel_chain 16
    have hlist : s0.pageFreeList = (bootKernel 16).pageFreeList := by rw [hs0]
    have hpages : s0.pages = (bootKernel 16).pages := by rw [hs0]
    rw [← hlist, ← hpages] at hboot
    exact hl0.chain.unique hboot
  obtain ⟨a, fl, rfl⟩ : ∃ (a : Fin NENV) (fl : List Nat), fl0 = a.val :: fl := by
    cases fl0 with
    | nil =>
        have hmem := (hfl0.mem_free 0).mpr ⟨by decide, (hfree 0 (by decide)).1⟩
        cases hmem
    | cons a fl =>
        exact ⟨⟨a, ((hfl0.mem_free a).mp List.mem_cons_self).1⟩, fl, rfl⟩
  rw [hchain] at hl0
  obtain ⟨eip, esp, s, heq, hwf, hfits, henvs, hcur, hroom, hstack⟩ := envCreate_ok (m := 1)
    smallImage_linked
    hwf0 hfits0 hl0 hfl0 (by rw [smallImage_room, List.length_range']; decide) .ENV_TYPE_USER
  have henv : s.envs a
      = reloaded (newEnv (s0.envs a) a 71 .ENV_TYPE_USER 0) eip esp .ENV_TYPE_USER := by
    rw [henvs, Function.update_self]
  have hst : (s.envs a).envStatus = .ENV_RUNNABLE := by
    rw [henv]
    rfl
  refine ⟨s, a, s0.kernPgdir, (Booted.init hafter heq0).create smallImage_linked heq, hwf, hfits, ?_,
    hst, hcur.trans hcur0⟩
  constructor
  case live =>
    use a.isLt
    rw [hst]
    simp
  case envId =>
    rw [henv]
    exact ENVX_nextEnvId a.isLt _
  case stack => exact (hstack stackVa (by decide) (by decide)).1
  case others =>
    intro e he hea
    rw [henvs, Function.update_of_ne hea]
    exact (hfree e he).1
  case room => exact hroom

/-- The parent runs. -/
theorem exists_at_single :
  ∃ m a, At m a ∧ Single m.kernel a
  := by
  obtain ⟨s, a, dir, hboot, hwf, hfits, hs, hst, hcur⟩ := exists_booted_single
  obtain ⟨fl, hfl⟩ := hwf.env
  obtain ⟨pg, henvpg, hpg⟩ := hfl.live_pgdir hs.live
  have hyield : (schedYield : Prog Kernel Unit) s = .error (.leave (switchTo s a)) := by
    apply schedYield_only a.isLt hst
    · intro e he hea
      rw [hs.others e he hea]
      simp
    · rw [isCurrent, hcur]
    · rw [henvpg]
      simp
  have hon : { s with curenv := none } = s := by rw [← hcur]
  have hpg' : (switchTo s a).pgdir a = some pg := by
    rw [switchTo_pgdir hs.live, hpg]
  obtain ⟨hmem, hkern⟩ := switchTo_mem s a
  obtain ⟨-, hpte, -⟩ := views_of_pgdir (switchTo_pgdir hs.live) hmem hkern
  have hkept : KeepsStatus ⟨{ kernel := s }, fun _ => none, fun _ => dir⟩ 0 .idle :=
    fun _ h => by cases h
  have hidle : Orderly ⟨{ kernel := s }, fun _ => none, fun _ => dir⟩ 0 .idle := by
    constructor
    case noOverflow => exact hfits.noOverflow hwf
    case settled =>
      constructor
      case env => exact fun _ _ hc => by cases hc
      case dir => exact fun _ hc => (hc rfl).elim
    case pushes => exact fun _ h => by cases h
  have hstep : Step (fun _ => smallImage) ⟨{ kernel := s }, fun _ => none, fun _ => dir⟩ 0 .idle
      (Machine.left ⟨{ kernel := s }, fun _ => none, fun _ => dir⟩ 0 { kernel := switchTo s a } pg) := by
    apply Step.idle rfl
    · rw [← hyield, ← hon]
      rfl
    · exact .switched rfl hpg'
  use Machine.left ⟨{ kernel := s }, fun _ => none, fun _ => dir⟩ 0 { kernel := switchTo s a } pg, a
  constructor
  · constructor
    case reachable => exact (Reachable.boot hboot).step ⟨hidle, hkept⟩ hstep
    case cpuEnv => rfl
    case dir =>
      simp only [Machine.left, Machine.kernel, Function.update_self]
      exact hpg'
    case lt => exact a.isLt
    case wf => exact hwf.switchTo hs.live
    case fits => exact hfits.switchTo hs.live
    case running =>
      simp only [Machine.left, Machine.kernel]
      rw [switchTo]
      simp [Kernel.setEnv]
  · simp only [Machine.left, Machine.kernel]
    constructor
    case live => exact (switchTo_live hs.live a).mpr hs.live
    case envId =>
      obtain ⟨_, _, henv, -⟩ := switchTo_envs s a a
      rw [henv]
      exact hs.envId
    case stack =>
      rw [Kernel.pteAt, hpte]
      exact hs.stack
    case others =>
      intro e he hea
      obtain ⟨status, runs, henv, hst'⟩ := switchTo_envs s a e
      rw [henv]
      obtain ⟨hae, -⟩ | ⟨-, rfl⟩ | ⟨-, hrun, -⟩ := hst'
      · exact (hea hae).elim
      · exact hs.others e he hea
      · rw [hs.others e he hea] at hrun
        cases hrun
    case room =>
      rw [HasFree, switchTo_frame]
      exact hs.room

/-! ### A parent and its child -/

/-- The environment `a` has a stack, and `c` has nothing mapped. No other environment can run, and
there are as many free ones as free pages. -/
structure Family (s : Kernel) (a : Nat) (c : Fin NENV) : Prop where
  ne : a ≠ c.val
  parent : s.Live a
  child : s.Live c
  parentId : ENVX (s.envs a).envId = a
  childId : ENVX (s.envs c).envId = c.val ∧ (s.envs c).envId ≠ 0
  adopted : (s.envs c).envParentId = (s.envs a).envId
  stack : refOf (s.pteAt a stackVa) ≠ none
  fresh : ∀ d < NUPDE, s.pde c d = 0
  others : ∀ e < NENV, e ≠ a → e ≠ c.val → (s.envs e).envStatus ≠ .ENV_RUNNABLE
  roomy : ∀ l fl, MemInv (bootAvail 16) ∅ (fun _ => 0) l s → EnvInv fl s → l.length ≤ fl.length

/-- The lists of free pages and environments stay as long. -/
theorem roomy_of_same (hwf : Wf (bootAvail 16) ∅ s) (hpages : s'.pages = s.pages)
    (hlist : s'.pageFreeList = s.pageFreeList)
    (hfree : ∀ e, (s'.envs e).envStatus = .ENV_FREE ↔ (s.envs e).envStatus = .ENV_FREE)
    (h : ∀ l fl, MemInv (bootAvail 16) ∅ (fun _ => 0) l s → EnvInv fl s → l.length ≤ fl.length) :
  ∀ l fl, MemInv (bootAvail 16) ∅ (fun _ => 0) l s' → EnvInv fl s' → l.length ≤ fl.length
  := by
  intro l fl hl hfl
  obtain ⟨l0, hl0⟩ := hwf.mem
  obtain ⟨fl0, hfl0⟩ := hwf.env
  have hchain := hl.chain
  rw [hpages, hlist] at hchain
  obtain rfl := hl0.chain.unique hchain
  have hperm : fl.Perm fl0 := by
    apply (List.perm_ext_iff_of_nodup hfl.nodup hfl0.nodup).mpr
    intro e
    rw [hfl.mem_free, hfl0.mem_free, hfree]
  rw [hperm.length_eq]
  exact h _ _ hl0 hfl0

namespace Family

variable {a : Nat} {c : Fin NENV} (h : Family s a c) (hwf : Wf (bootAvail 16) ∅ s)
include h hwf

/-- Changing the records of environments but for their names and directories. -/
theorem of_same (hpg : ∀ e, s'.pgdir e = s.pgdir e) (hmem : s'.mem = s.mem)
    (hkern : s'.kernPgdir = s.kernPgdir) (hpages : s'.pages = s.pages)
    (hlist : s'.pageFreeList = s.pageFreeList)
    (hid : ∀ e, (s'.envs e).envId = (s.envs e).envId
      ∧ (s'.envs e).envParentId = (s.envs e).envParentId)
    (hfree : ∀ e, (s'.envs e).envStatus = .ENV_FREE ↔ (s.envs e).envStatus = .ENV_FREE)
    (hothers : ∀ e, e ≠ a → e ≠ c.val → (s'.envs e).envStatus = .ENV_RUNNABLE →
      (s.envs e).envStatus = .ENV_RUNNABLE) :
  Family s' a c
  := by
  obtain ⟨hpde, hpte, -⟩ := views_of_pgdir hpg hmem hkern
  constructor
  case ne => exact h.ne
  case parent => exact ⟨h.parent.1, fun hf => h.parent.2 ((hfree a).mp hf)⟩
  case child => exact ⟨h.child.1, fun hf => h.child.2 ((hfree c).mp hf)⟩
  case parentId =>
    rw [(hid a).1]
    exact h.parentId
  case childId =>
    rw [(hid c).1]
    exact h.childId
  case adopted =>
    rw [(hid c).2, (hid a).1]
    exact h.adopted
  case stack =>
    rw [Kernel.pteAt, hpte]
    exact h.stack
  case fresh =>
    intro d hd
    rw [hpde]
    exact h.fresh d hd
  case others => exact fun e he hea hec hst => h.others e he hea hec (hothers e hea hec hst)
  case roomy => exact roomy_of_same hwf hpages hlist hfree h.roomy

/-- Changing the record of the parent or of the child. -/
theorem setEnv {e : Nat} {env : Env} (he : e = a ∨ e = c.val) (hlive : s.Live e)
    (hst : env.envStatus ≠ .ENV_FREE) (hpg : env.envPgdir = (s.envs e).envPgdir)
    (hid : env.envId = (s.envs e).envId ∧ env.envParentId = (s.envs e).envParentId) :
  Family (s.setEnv e env) a c
  := by
  have hpg' : (s.setEnv e env).pgdir e = s.pgdir e := by
    rw [Kernel.setEnv_pgdir, if_neg hst, Kernel.pgdir, if_neg hlive.2, hpg]
  apply h.of_same hwf (Kernel.setEnv_views hpg').1 rfl rfl rfl rfl
  · intro e'
    by_cases hee : e' = e
    · rw [hee, s.setEnv_envs_self]
      exact hid
    · rw [s.setEnv_envs_of_ne _ hee]
      exact ⟨rfl, rfl⟩
  · intro e'
    by_cases hee : e' = e
    · rw [hee, s.setEnv_envs_self]
      simp [hst, hlive.2]
    · rw [s.setEnv_envs_of_ne _ hee]
  · intro e' hea hec
    have hee : e' ≠ e := by
      rintro rfl
      exact he.elim hea hec
    rw [s.setEnv_envs_of_ne _ hee]
    exact id

/-- Switching to the parent or to the child. -/
theorem switchTo {e : Nat} (hcur : s.curenv = some a ∨ s.curenv = some c.val)
    (he : e = a ∨ e = c.val) (hlive : s.Live e) :
  Family (Root.switchTo s e) a c
  := by
  obtain ⟨hmem, hkern⟩ := switchTo_mem s e
  apply h.of_same hwf (switchTo_pgdir hlive) hmem hkern
  · rw [switchTo_frame]
  · rw [switchTo_frame]
  · intro e'
    obtain ⟨_, _, henv, -⟩ := switchTo_envs s e e'
    rw [henv]
    exact ⟨rfl, rfl⟩
  · intro e'
    obtain ⟨status, runs, henv, hst⟩ := switchTo_envs s e e'
    rw [henv]
    obtain ⟨rfl, rfl⟩ | ⟨-, rfl⟩ | ⟨-, hrun, rfl⟩ := hst
    · simp [hlive.2]
    · rfl
    · simp [hrun]
  · intro e' hea hec
    have hee : e' ≠ e := by
      rintro rfl
      exact he.elim hea hec
    obtain ⟨cur, hcur', hne⟩ : ∃ cur, s.curenv = some cur ∧ e' ≠ cur := by
      obtain hcur | hcur := hcur
      · exact ⟨a, hcur, hea⟩
      · exact ⟨c.val, hcur, hec⟩
    rw [switchTo_of_ne hcur' hee hne]
    exact id

end Family

/-! ### Forking -/

theorem nextEnvId_ne_zero (e : Nat) (envId : Word) :
  nextEnvId e envId ≠ 0
  := by
  unfold nextEnvId
  intro h
  obtain ⟨hgen, -⟩ := BitVec.or_eq_zero_iff.mp h
  split at hgen
  case isTrue => exact absurd hgen (by decide)
  case isFalse hpos =>
    rw [hgen] at hpos
    exact hpos (by decide)

/-- The environments that are free are as many as the pages, at least. -/
theorem Single.roomy {a e : Nat} {env : Env}
    (hs : ∀ e' < NENV, e' ≠ a → (s.envs e').envStatus = .ENV_FREE)
    (henvs : s'.envs = Function.update s.envs e env) :
  ∀ l fl, MemInv (bootAvail 16) ∅ (fun _ => 0) l s' → EnvInv fl s' → l.length ≤ fl.length
  := by
  intro l fl hl hfl
  have hpages : l.length ≤ 85 := by
    have hsub : l.toFinset ⊆ Finset.Ico 2 87 := by
      intro p hp
      have hfree := (hl.balanced.mem_free p).mp (List.mem_toFinset.mp hp)
      obtain ⟨h2, h87, -⟩ := mem_bootAvail.mp hfree.1
      exact Finset.mem_Ico.mpr ⟨h2, h87⟩
    have hcard := Finset.card_le_card hsub
    have hnodup : l.Nodup := hl.balanced.nodup
    rw [List.toFinset_card_of_nodup hnodup, Nat.card_Ico] at hcard
    exact hcard
  have hfree : NENV ≤ fl.length + 2 := by
    have hsub : (List.range NENV).Subperm (a :: e :: fl) := by
      apply List.nodup_range.subperm
      intro e' he'
      by_cases hea : e' = a
      · rw [hea]
        apply List.mem_cons_self
      · by_cases hee : e' = e
        · rw [hee]
          exact List.mem_cons_of_mem _ List.mem_cons_self
        · apply List.mem_cons_of_mem
          apply List.mem_cons_of_mem
          rw [hfl.mem_free, henvs, Function.update_of_ne hee]
          exact ⟨List.mem_range.mp he', hs e' (List.mem_range.mp he') hea⟩
    have hlen := hsub.length_le
    rw [List.length_range, List.length_cons, List.length_cons] at hlen
    exact hlen
  simp only [NENV] at hfree
  omega

/-- A child of the only environment. -/
theorem Single.forked {a : Nat} {c : Fin NENV} {p : Nat} {s1 : Kernel}
    (h : Single s a) (hc : Created c p .ENV_TYPE_USER (s.envs a).envId s s1) :
  Family (forked s1 a c) a c ∧ ((Root.forked s1 a c).envs c).envStatus = .ENV_NOT_RUNNABLE
  := by
  have hne : a ≠ c.val := by
    rintro rfl
    exact h.live.2 hc.free
  have henvs : (Root.forked s1 a c).envs = Function.update s.envs c
      { newEnv (s.envs c) c p .ENV_TYPE_USER (s.envs a).envId with
        envStatus := .ENV_NOT_RUNNABLE
        envTf := { (s1.envs a).envTf with
          tfRegs := { (s1.envs a).envTf.tfRegs with regEax := 0 } } } := by
    simp only [Root.forked, Kernel.setEnv, hc.envs, Function.update_idem, Function.update_self]
  have hpg : (Root.forked s1 a c).pgdir c = s1.pgdir c := by
    rw [Root.forked, Kernel.setEnv_pgdir, if_neg (by simp), hc.pgdir_self, hc.envs,
      Function.update_self]
    rfl
  obtain ⟨-, hpde, hpte, -⟩ := Kernel.setEnv_views hpg
  have hst : ((Root.forked s1 a c).envs c).envStatus = .ENV_NOT_RUNNABLE := by
    rw [henvs, Function.update_self]
  refine ⟨?_, hst⟩
  constructor
  case ne => exact hne
  case parent =>
    use h.live.1
    rw [henvs, Function.update_of_ne hne]
    exact h.live.2
  case child =>
    use c.isLt
    rw [hst]
    simp
  case parentId =>
    rw [henvs, Function.update_of_ne hne]
    exact h.envId
  case childId =>
    rw [henvs, Function.update_self]
    exact ⟨ENVX_nextEnvId c.isLt _, nextEnvId_ne_zero _ _⟩
  case adopted =>
    rw [henvs, Function.update_self, Function.update_of_ne hne]
    rfl
  case stack =>
    have hpteAt : s1.pteAt a stackVa = s.pteAt a stackVa := by
      have hptes := congrFun hc.ptes (pteAddr ⟨a, h.live.1⟩ stackVa (by decide))
      rw [ptes_pteAddr, ptes_pteAddr] at hptes
      exact hptes
    rw [Kernel.pteAt, Root.forked, hpte, ← Kernel.pteAt, hpteAt]
    exact h.stack
  case fresh =>
    intro d hd
    rw [Root.forked, hpde]
    exact hc.pde_self hd
  case others =>
    intro e he hea hec
    rw [henvs, Function.update_of_ne hec, h.others e he hea]
    simp
  case roomy => exact Single.roomy h.others henvs

/-- Another child leaves the family as it is. -/
theorem Family.forked {a : Nat} {c e : Fin NENV} {p : Nat} {parentId : Word} {l fl : List Nat}
    {s1 : Kernel} (h : Family s a c) (hl : MemInv (bootAvail 16) ∅ (fun _ => 0) (p :: l) s)
    (hfl : EnvInv (e.val :: fl) s) (hc : Created e p .ENV_TYPE_USER parentId s s1)
    (hl1 : MemInv (bootAvail 16) ∅ (fun _ => 0) l s1) (hfl1 : EnvInv fl s1) :
  Family (Root.forked s1 a e) a c ∧ (Root.forked s1 a e).envs c = s.envs c
  := by
  have hae : a ≠ e.val := by
    rintro rfl
    exact h.parent.2 hc.free
  have hce : c.val ≠ e.val := by
    intro hce
    exact h.child.2 (hce ▸ hc.free)
  have henvs : ∀ e', e' ≠ e.val → (Root.forked s1 a e).envs e' = s.envs e' := by
    intro e' he'
    rw [Root.forked, s1.setEnv_envs_of_ne _ he', hc.envs, Function.update_of_ne he']
  have hst : ((Root.forked s1 a e).envs e).envStatus = .ENV_NOT_RUNNABLE := by
    rw [Root.forked, s1.setEnv_envs_self]
  have hpg : (Root.forked s1 a e).pgdir e = s1.pgdir e := by
    rw [Root.forked, Kernel.setEnv_pgdir, if_neg (by simp), hc.pgdir_self, hc.envs,
      Function.update_self]
    rfl
  obtain ⟨-, hpde, hpte, -⟩ := Kernel.setEnv_views hpg
  refine ⟨?_, henvs c hce⟩
  constructor
  case ne => exact h.ne
  case parent =>
    use h.parent.1
    rw [henvs a hae]
    exact h.parent.2
  case child =>
    use c.isLt
    rw [henvs c hce]
    exact h.child.2
  case parentId =>
    rw [henvs a hae]
    exact h.parentId
  case childId =>
    rw [henvs c hce]
    exact h.childId
  case adopted =>
    rw [henvs c hce, henvs a hae]
    exact h.adopted
  case stack =>
    have hpteAt : s1.pteAt a stackVa = s.pteAt a stackVa := by
      have hptes := congrFun hc.ptes (pteAddr ⟨a, h.parent.1⟩ stackVa (by decide))
      rw [ptes_pteAddr, ptes_pteAddr] at hptes
      exact hptes
    rw [Kernel.pteAt, Root.forked, hpte, ← Kernel.pteAt, hpteAt]
    exact h.stack
  case fresh =>
    intro d hd
    have hd' := hd
    simp only [NUPDE] at hd'
    rw [Root.forked, hpde, hc.pde_of_ne hce (by omega)]
    exact h.fresh d hd
  case others =>
    intro e' he' hea hec
    by_cases hee : e' = e.val
    · rw [hee, hst]
      simp
    · rw [henvs e' hee]
      exact h.others e' he' hea hec
  case roomy =>
    intro l' fl' hl' hfl'
    obtain rfl := hl1.chain.unique hl'.chain
    have hfl1' : EnvInv fl (Root.forked s1 a e) := by
      apply hfl1.setEnv (created_live hc).2
      · simp
      · rfl
    obtain rfl := hfl1'.chain.unique hfl'.chain
    have hlen := h.roomy _ _ hl hfl
    rw [List.length_cons, List.length_cons] at hlen
    exact Nat.le_of_succ_le_succ hlen

/-- Entering the kernel with a family. -/
theorem Family.entered {a : Nat} {c : Fin NENV} (h : Family s a c) (hwf : Wf (bootAvail 16) ∅ s)
    {e : Nat} (he : e = a ∨ e = c.val) (hlive : s.Live e) (tf : Trapframe) :
  Family (Root.entered s e tf) a c
  := by
  have hset : Family (s.setEnv e { s.envs e with envTf := tf }) a c :=
    h.setEnv hwf he hlive hlive.2 rfl ⟨rfl, rfl⟩
  have hwf' : Wf (bootAvail 16) ∅ (s.setEnv e { s.envs e with envTf := tf }) :=
    hwf.setEnv hlive.2 hlive.2 rfl
  exact hset.of_same hwf' (fun _ => rfl) rfl rfl rfl rfl (fun _ => ⟨rfl, rfl⟩) (fun _ => Iff.rfl)
    (fun _ _ _ => id)

theorem Single.entered {a : Nat} (h : Single s a) (tf : Trapframe) :
  Single (Root.entered s a tf) a
  := by
  have hpg : (s.setEnv a { s.envs a with envTf := tf }).pgdir a = s.pgdir a := by
    rw [Kernel.setEnv_pgdir, Kernel.pgdir]
  have hself : (Root.entered s a tf).envs a = { s.envs a with envTf := tf } := by
    simp [Root.entered, Kernel.setEnv]
  constructor
  case live =>
    use h.live.1
    rw [hself]
    exact h.live.2
  case envId =>
    rw [hself]
    exact h.envId
  case stack =>
    have hpte := (Kernel.setEnv_views hpg).2.2.1 a (PDX stackVa) (PTX stackVa)
    intro hnone
    apply h.stack
    rw [Kernel.pteAt, ← hpte]
    exact hnone
  case others =>
    intro e he hea
    simp only [Root.entered, Kernel.setEnv, Function.update_of_ne hea]
    exact h.others e he hea
  case room => exact h.room

/-- The environment that runs forks. -/
theorem At.fork {m : Machine} {a : Nat} {c : Fin NENV} {p : Nat} {l fl : List Nat} (h : At m a)
    (hl : MemInv (bootAvail 16) ∅ (fun _ => 0) (p :: l) m.kernel)
    (hfl : EnvInv (c.val :: fl) m.kernel) :
  ∃ m' s1 r, At m' a
    ∧ MemInv (bootAvail 16) ∅ (fun _ => 0) (p :: l) (entered m.kernel a (asking 7 0 0 0 0))
    ∧ EnvInv (c.val :: fl) (entered m.kernel a (asking 7 0 0 0 0))
    ∧ Created c p .ENV_TYPE_USER ((entered m.kernel a (asking 7 0 0 0 0)).envs a).envId
      (entered m.kernel a (asking 7 0 0 0 0)) s1
    ∧ MemInv (bootAvail 16) ∅ (fun _ => 0) l s1 ∧ EnvInv fl s1
    ∧ Wf (bootAvail 16) ∅ (forked s1 a c) ∧ m'.kernel = answered (forked s1 a c) a r
  := by
  have hwf0 := h.wf.entered h.live (asking 7 0 0 0 0)
  have hfits0 := fits_entered h.fits a (asking 7 0 0 0 0)
  have hfl0 : EnvInv (c.val :: fl) (entered m.kernel a (asking 7 0 0 0 0)) := by
    have hset : EnvInv (c.val :: fl)
        (m.kernel.setEnv a { m.kernel.envs a with envTf := asking 7 0 0 0 0 }) :=
      hfl.setEnv h.live.2 h.live.2 rfl
    exact hset.congr rfl rfl
  have hl0 : MemInv (bootAvail 16) ∅ (fun _ => 0) (p :: l)
      (entered m.kernel a (asking 7 0 0 0 0)) := by
    obtain ⟨l0, hl0⟩ := hwf0.mem
    obtain rfl := hl.chain.unique hl0.chain
    exact hl0
  generalize hk : entered m.kernel a (asking 7 0 0 0 0) = k at hwf0 hfits0 hfl0 hl0 ⊢
  have hself : k.envs a = { m.kernel.envs a with envTf := asking 7 0 0 0 0 } := by
    rw [← hk]
    simp [entered, Kernel.setEnv]
  have hlive : k.Live a := by
    use h.lt
    rw [hself]
    exact h.live.2
  have hcur : k.curenv = some a := by
    rw [← hk]
    rfl
  obtain ⟨s1, hc, hl1, hfl1, heq⟩ := sysExofork_forks hl0 hfl0 hcur hlive
  have hne : a ≠ c.val := by
    rintro rfl
    exact hlive.2 hc.free
  have hpg : (forked s1 a c).pgdir c = s1.pgdir c := by
    rw [forked, Kernel.setEnv_pgdir, if_neg (by simp), hc.pgdir_self, hc.envs, Function.update_self]
    rfl
  have henv : (forked s1 a c).envs a = k.envs a := by
    rw [forked, s1.setEnv_envs_of_ne _ hne, hc.envs, Function.update_of_ne hne]
  have hfits1 := created_fits hwf0 hfits0 ⟨_, hl0.chain, List.mem_cons_self⟩ hc
  have hslot : (forked s1 a c).slotRef = s1.slotRef := (Kernel.setEnv_views hpg).2.2.2
  have hdir : (forked s1 a c).pgdir a = m.kernel.pgdir a := by
    have hdirs := (Kernel.setEnv_views hpg).1 a
    rw [forked, hdirs, hc.pgdir_of_ne hne, Kernel.pgdir, hself, Kernel.pgdir]
  have hwf1 : Wf (bootAvail 16) ∅ (forked s1 a c) :=
    (hwf0.created hc hl1 hfl1).forked (created_live hc) a
  have hcall : Syscall.handler (fun _ => smallImage) 0 0 0 0 0 .SYS_exofork
      { m.on 0 with kernel := entered m.kernel a (asking 7 0 0 0 0) }
      = .ok (((forked s1 a c).envs c).envId, { m.on 0 with kernel := forked s1 a c }) := by
    rw [Syscall.handler, onKernel]
    simp only [hk, heq]
  obtain ⟨m', hm', hkernel⟩ := h.answer rfl (by simp) (fun hset => by cases hset) hcall
    (by rw [← hcur, forked, Kernel.setEnv, hc.quiet])
    (by rw [henv, hself]; exact h.running) hdir
    hwf1
    (fun q hq => by rw [Kernel.refs, hslot]; exact hfits1 q hq)
  exact ⟨m', s1, _, hm', hl0, hfl0, hc, hl1, hfl1, hwf1, hkernel⟩

/-- The family after the parent gets the value of a system call. -/
theorem Family.answered {a : Nat} {c : Fin NENV} (h : Family s a c) (hwf : Wf (bootAvail 16) ∅ s)
    (r : Word) :
  Family (Root.answered s a r) a c ∧ (Root.answered s a r).envs c = s.envs c
  := by
  constructor
  · apply h.setEnv hwf (Or.inl rfl) h.parent
    · exact h.parent.2
    · rfl
    · exact ⟨rfl, rfl⟩
  · rw [Root.answered, s.setEnv_envs_of_ne _ h.ne.symm]

/-- The parent has a child that can not run yet, and a page is free. -/
theorem exists_at_family :
  ∃ m a c, At m a ∧ Family m.kernel a c ∧ (m.kernel.envs c).envStatus = .ENV_NOT_RUNNABLE
    ∧ (m.kernel.envs c).envIpcRecving = false ∧ m.kernel.pageFreeList ≠ none
  := by
  obtain ⟨m, a, hm, hs⟩ := exists_at_single
  obtain ⟨l, hl⟩ := hm.wf.mem
  obtain ⟨fl, hfl⟩ := hm.wf.env
  obtain ⟨p, q, l, rfl⟩ : ∃ p q l', l = p :: q :: l' := by
    obtain ⟨l', hchain, hlen⟩ := hs.room
    obtain rfl := hl.chain.unique hchain
    match l, hlen with
    | p :: q :: l, _ => exact ⟨p, q, l, rfl⟩
  obtain ⟨c, fl, rfl⟩ : ∃ (c : Fin NENV) (fl' : List Nat), fl = c.val :: fl' := by
    have hother : ∃ e < NENV, e ≠ a := by
      by_cases ha : a = 0
      · use 1, by decide
        rw [ha]
        decide
      · use 0, by decide
        exact fun h0 => ha h0.symm
    obtain ⟨e, he, hea⟩ := hother
    have hmem := (hfl.mem_free e).mpr ⟨he, hs.others e he hea⟩
    cases fl with
    | nil => cases hmem
    | cons c fl => exact ⟨⟨c, ((hfl.mem_free c).mp List.mem_cons_self).1⟩, fl, rfl⟩
  obtain ⟨m', s1, r, hm', -, -, hc, hl1, -, hwf1, hkernel⟩ := hm.fork hl hfl
  obtain ⟨hf, hst⟩ := (hs.entered (asking 7 0 0 0 0)).forked hc
  obtain ⟨hf', henv⟩ := hf.answered hwf1 r
  have hrecv : ((forked s1 a c).envs c).envIpcRecving = false := by
    rw [forked, Kernel.setEnv_envs_self, hc.envs, Function.update_self]
    rfl
  use m', a, c, hm'
  rw [hkernel, henv]
  refine ⟨hf', hst, hrecv, ?_⟩
  intro hnone
  have hnil := hl1.pageFreeList_eq_none.mp hnone
  cases hnil

/-- A system call of the parent changes the record of the child and returns. -/
theorem At.change_step {m : Machine} {a : Nat} {c : Fin NENV} (hm : At m a)
    (hf : Family m.kernel a c) {no : Word} {sys : Syscall} {a1 a2 a3 a4 r : Word} {env : Env}
    (hsys : Syscall.ofWord no = some sys) (hne : sys ≠ .SYS_envreplace)
    (hkept : sys = .SYS_env_set_status → ∀ e,
      (entered m.kernel a (asking no a1 a2 a3 a4)).findEnv a a1 true = some e →
        (m.kernel.envs e).envIpcRecving = false)
    (heq : sys.handler (fun _ => smallImage) a1 a2 a3 a4 0
      { m.on 0 with kernel := entered m.kernel a (asking no a1 a2 a3 a4) } = .ok (r, { m.on 0 with
        kernel := (entered m.kernel a (asking no a1 a2 a3 a4)).setEnv c env }))
    (hst : env.envStatus ≠ .ENV_FREE) (hdir : env.envPgdir = (m.kernel.envs c).envPgdir)
    (hid : env.envId = (m.kernel.envs c).envId
      ∧ env.envParentId = (m.kernel.envs c).envParentId) :
  ∃ m', Step (fun _ => smallImage) m 0 (.trap (asking no a1 a2 a3 a4)) m' ∧ At m' a
    ∧ Family m'.kernel a c ∧ m'.kernel.envs c = env
    ∧ m'.kernel.pageFreeList = m.kernel.pageFreeList
  := by
  have hwf0 := hm.wf.entered hm.live (asking no a1 a2 a3 a4)
  have hfits0 := fits_entered hm.fits a (asking no a1 a2 a3 a4)
  have hf0 := hf.entered hm.wf (Or.inl rfl) hm.live (asking no a1 a2 a3 a4)
  have hcur0 : (entered m.kernel a (asking no a1 a2 a3 a4)).curenv = some a := rfl
  have henv0 : (entered m.kernel a (asking no a1 a2 a3 a4)).envs c = m.kernel.envs c := by
    simp only [entered, Kernel.setEnv, Function.update_of_ne hf.ne.symm]
  have hself0 : ((entered m.kernel a (asking no a1 a2 a3 a4)).envs a).envStatus
      = .ENV_RUNNING := by
    simp only [entered, Kernel.setEnv, Function.update_self]
    exact hm.running
  have hdir0 : (entered m.kernel a (asking no a1 a2 a3 a4)).pgdir a = m.kernel.pgdir a := by
    simp only [entered, Kernel.pgdir, Kernel.setEnv, Function.update_self]
  have hlist0 : (entered m.kernel a (asking no a1 a2 a3 a4)).pageFreeList
      = m.kernel.pageFreeList := rfl
  rw [← henv0] at hdir hid
  generalize hk : entered m.kernel a (asking no a1 a2 a3 a4) = k
    at hwf0 hfits0 hf0 hcur0 hself0 hdir0 hdir hid hlist0
  have hcall : sys.handler (fun _ => smallImage) a1 a2 a3 a4 0
      { m.on 0 with kernel := entered m.kernel a (asking no a1 a2 a3 a4) }
      = .ok (r, { m.on 0 with kernel := k.setEnv c env }) := by
    rw [← hk]
    exact heq
  have hcur1 : (k.setEnv c env).curenv = some a := hcur0
  have hpg : (k.setEnv c env).pgdir c = k.pgdir c := by
    rw [Kernel.setEnv_pgdir, if_neg hst, hdir, Kernel.pgdir, if_neg hf0.child.2]
  have hwf1 : Wf (bootAvail 16) ∅ (k.setEnv c env) := hwf0.setEnv hf0.child.2 hst hdir
  have hf1 : Family (k.setEnv c env) a c :=
    hf0.setEnv hwf0 (Or.inr rfl) hf0.child hst hdir hid
  have hslot : (k.setEnv c env).slotRef = k.slotRef := (Kernel.setEnv_views hpg).2.2.2
  have hself1 : ((k.setEnv c env).envs a).envStatus = .ENV_RUNNING := by
    rw [k.setEnv_envs_of_ne _ hf.ne]
    exact hself0
  have hfits1 : Fits (bootAvail 16) (k.setEnv c env) := by
    intro q hq
    rw [Kernel.refs, hslot]
    exact hfits0 q hq
  obtain ⟨m', hstep, hm', hkernel⟩ := hm.answer_step hsys hne (hk ▸ hkept) hcall hcur1 hself1
    (((Kernel.setEnv_views hpg).1 a).trans hdir0) hwf1 hfits1
  obtain ⟨hf', henv⟩ := hf1.answered hwf1 r
  use m', hstep, hm'
  rw [hkernel, henv, k.setEnv_envs_self]
  exact ⟨hf', rfl, hlist0⟩

/-- The child is found by its identifier. -/
theorem Family.findEnv {a : Nat} {c : Fin NENV} (h : Family s a c) (checkperm : Bool) :
  s.findEnv a (s.envs c).envId checkperm = some c.val
  := by
  have hno : ¬ ((s.envs c).envStatus = .ENV_FREE ∨ (s.envs c).envId ≠ (s.envs c).envId) := by
    simp [h.child.2]
  rw [Kernel.findEnv, if_neg h.childId.2, h.childId.1, if_neg hno, if_neg]
  rintro ⟨-, -, hparent⟩
  exact hparent h.adopted

/-- The parent makes its child runnable, and a page is free. -/
theorem exists_at_runnable :
  ∃ m a c, At m a ∧ Family m.kernel a c ∧ (m.kernel.envs c).envStatus = .ENV_RUNNABLE
    ∧ m.kernel.pageFreeList ≠ none
  := by
  obtain ⟨m, a, c, hm, hf, -, hrecv, hroom⟩ := exists_at_family
  generalize hid : (m.kernel.envs c).envId = envid
  have hf0 := hf.entered hm.wf (Or.inl rfl) hm.live (asking 8 envid 2 0 0)
  have hcur0 : (entered m.kernel a (asking 8 envid 2 0 0)).curenv = some a := rfl
  have henv0 : (entered m.kernel a (asking 8 envid 2 0 0)).envs c = m.kernel.envs c := by
    simp only [entered, Kernel.setEnv, Function.update_of_ne hf.ne.symm]
  have hfind : (entered m.kernel a (asking 8 envid 2 0 0)).findEnv a envid true = some c.val := by
    have hfind := hf0.findEnv true
    rw [henv0, hid] at hfind
    exact hfind
  have hset : sysEnvSetStatus envid 2 (entered m.kernel a (asking 8 envid 2 0 0))
      = .ok (0, (entered m.kernel a (asking 8 envid 2 0 0)).setEnv c { m.kernel.envs c with
        envStatus := .ENV_RUNNABLE }) := by
    rw [sysEnvSetStatus, show statusOfWord 2 = some .ENV_RUNNABLE from rfl]
    simp only
    rw [bind_of_eq (envid2env_eq hcur0 envid true), hfind, ← henv0]
    rfl
  have hcall : Syscall.handler (fun _ => smallImage) envid 2 0 0 0 .SYS_env_set_status
      { m.on 0 with kernel := entered m.kernel a (asking 8 envid 2 0 0) }
      = .ok (0, { m.on 0 with
        kernel := (entered m.kernel a (asking 8 envid 2 0 0)).setEnv c { m.kernel.envs c with
          envStatus := .ENV_RUNNABLE } }) := by
    rw [Syscall.handler, onKernel]
    simp only [hset]
  obtain ⟨m', -, hm', hf', henv, hlist⟩ :=
    hm.change_step hf rfl (by simp) (fun _ e he => by
      rw [hfind] at he
      rw [← Option.some.inj he]
      exact hrecv) hcall (by simp) rfl ⟨rfl, rfl⟩
  use m', a, c, hm', hf'
  rw [henv, hlist]
  exact ⟨rfl, hroom⟩

/-- The parent forks until no page is free. -/
theorem exists_at_full :
  ∃ m a c, At m a ∧ Family m.kernel a c ∧ (m.kernel.envs c).envStatus = .ENV_RUNNABLE
    ∧ m.kernel.pageFreeList = none
  := by
  obtain ⟨m, a, c, hm, hf, hst, -⟩ := exists_at_runnable
  obtain ⟨l, hl⟩ := hm.wf.mem
  -- every fork takes one page
  induction l generalizing m with
  | nil => exact ⟨m, a, c, hm, hf, hst, hl.pageFreeList_eq_none.mpr rfl⟩
  | cons p l ih =>
      obtain ⟨fl, hfl⟩ := hm.wf.env
      have hroom := hf.roomy _ _ hl hfl
      cases fl with
      | nil => exact absurd hroom (by simp)
      | cons e fl =>
          have he : e < NENV := ((hfl.mem_free e).mp List.mem_cons_self).1
          obtain ⟨m', s1, r, hm', hl0, hfl0, hc, hl1, hfl1, hwf1, hkernel⟩ :=
            hm.fork (c := ⟨e, he⟩) hl hfl
          obtain ⟨hf1, henv1⟩ := (hf.entered hm.wf (Or.inl rfl) hm.live (asking 7 0 0 0 0)).forked
            hl0 hfl0 hc hl1 hfl1
          obtain ⟨hf', henv'⟩ := hf1.answered hwf1 r
          have henv0 : (entered m.kernel a (asking 7 0 0 0 0)).envs c = m.kernel.envs c := by
            simp only [entered, Kernel.setEnv, Function.update_of_ne hf.ne.symm]
          apply ih m' hm'
          · rw [hkernel]
            exact hf'
          · rw [hkernel, henv', henv1, henv0, hst]
          · obtain ⟨l', hl'⟩ := hm'.wf.mem
            have hchain := hl'.chain
            rw [hkernel] at hchain
            obtain rfl := hl1.chain.unique hchain
            exact hl'

/-! ### Waiting -/

/-- The two environments of a family are told apart. -/
theorem Family.isCurrent {a : Nat} {c : Fin NENV} (h : Family s a c) :
  (s.curenv = some a → Root.isCurrent s c = false) ∧ (s.curenv = some c.val → Root.isCurrent s a = false)
  := by
  have hne : (s.envs a).envId ≠ (s.envs c).envId := by
    intro heq
    apply h.ne
    rw [← h.parentId, ← h.childId.1, heq]
  constructor
  · intro hcur
    rw [Root.isCurrent, hcur]
    simpa using hne
  · intro hcur
    rw [Root.isCurrent, hcur]
    simpa using hne.symm

/-- The parent gives up the processor, and the child goes on. -/
theorem At.yield_step {m : Machine} {a : Nat} {c : Fin NENV} (hm : At m a)
    (hf : Family m.kernel a c) (hst : (m.kernel.envs c).envStatus = .ENV_RUNNABLE) :
  ∃ m', Step (fun _ => smallImage) m 0 (.trap (asking 10 0 0 0 0)) m' ∧ At m' c
    ∧ Family m'.kernel a c ∧ (m'.kernel.envs a).envStatus = .ENV_RUNNABLE
    ∧ m'.kernel.pageFreeList = m.kernel.pageFreeList
  := by
  have hwf0 := hm.wf.entered hm.live (asking 10 0 0 0 0)
  have hfits0 := fits_entered hm.fits a (asking 10 0 0 0 0)
  have hf0 := hf.entered hm.wf (Or.inl rfl) hm.live (asking 10 0 0 0 0)
  have hcur0 : (entered m.kernel a (asking 10 0 0 0 0)).curenv = some a := rfl
  have hst0 : ((entered m.kernel a (asking 10 0 0 0 0)).envs c).envStatus = .ENV_RUNNABLE := by
    simp only [entered, Kernel.setEnv, Function.update_of_ne hf.ne.symm]
    exact hst
  have hself0 : ((entered m.kernel a (asking 10 0 0 0 0)).envs a).envStatus = .ENV_RUNNING := by
    simp only [entered, Kernel.setEnv, Function.update_self]
    exact hm.running
  have hlist0 : (entered m.kernel a (asking 10 0 0 0 0)).pageFreeList = m.kernel.pageFreeList := rfl
  generalize hk : entered m.kernel a (asking 10 0 0 0 0) = k at hwf0 hfits0 hf0 hcur0 hst0 hself0 hlist0
  obtain ⟨fl, hfl⟩ := hwf0.env
  have hyield : (schedYield : Prog Kernel Unit) k = .error (.leave (switchTo k c)) := by
    apply schedYield_only c.isLt hst0
    · intro e he hec
      by_cases hea : e = a
      · rw [hea, hself0]
        simp
      · exact hf0.others e he hea hec
    · exact hf0.isCurrent.1 hcur0
    · exact hfl.pgdir c hf0.child
  have hcall : Syscall.handler (fun _ => smallImage) 0 0 0 0 0 .SYS_yield
      { m.on 0 with kernel := entered m.kernel a (asking 10 0 0 0 0) }
      = .error (.leave { m.on 0 with kernel := switchTo k c }) := by
    have hrun : (do sysYield; pure 0 : Prog Kernel Word) k = .error (.leave (switchTo k c)) :=
      bind_of_error hyield
    rw [Syscall.handler, onKernel]
    simp only [hk, hrun]
  obtain ⟨m', hstep, hm', hkernel⟩ := hm.switch_step rfl (by simp) (fun hset => by cases hset) hcall hf0.child hwf0 hfits0
  use m', hstep, hm'
  rw [hkernel]
  refine ⟨hf0.switchTo hwf0 (Or.inl hcur0) (Or.inr rfl) hf0.child, ?_, ?_⟩
  · have hpre : (k.preempted.envs a).envStatus = .ENV_RUNNABLE := by
      rw [Kernel.preempted, hcur0]
      simp only
      rw [if_pos hself0, k.setEnv_envs_self]
    simp only [switchTo, Kernel.setEnv, Function.update_of_ne hf.ne]
    exact hpre
  · rw [switchTo_frame]
    exact hlist0

/-- The child runs, and the parent can. -/
theorem exists_at_child :
  ∃ m a c, At m c.val ∧ Family m.kernel a c ∧ (m.kernel.envs a).envStatus = .ENV_RUNNABLE
    ∧ m.kernel.pageFreeList = none
  := by
  obtain ⟨m, a, c, hm, hf, hst, hnone⟩ := exists_at_full
  obtain ⟨m', -, hm', hf', hst', hlist⟩ := hm.yield_step hf hst
  exact ⟨m', a, c, hm', hf', hst', hlist.trans hnone⟩

/-- The child asks for a message at `dstva`, and the parent goes on. -/
theorem At.receive_step {m : Machine} {a : Nat} {c : Fin NENV} (hm : At m c)
    (hf : Family m.kernel a c) (hst : (m.kernel.envs a).envStatus = .ENV_RUNNABLE) {dstva : Word}
    (hva : ¬ (dstva.toNat < UTOP ∧ dstva.toNat % PGSIZE ≠ 0)) :
  ∃ m', Step (fun _ => smallImage) m 0 (.trap (asking 12 dstva 0 0 0)) m' ∧ At m' a
    ∧ Family m'.kernel a c ∧ (m'.kernel.envs c).envIpcRecving = true
    ∧ (m'.kernel.envs c).envIpcDstva
      = (if dstva.toNat ≥ UTOP then BitVec.ofNat 32 KERNBASE else dstva)
    ∧ m'.kernel.pageFreeList = m.kernel.pageFreeList
  := by
  have hwf0 := hm.wf.entered hm.live (asking 12 dstva 0 0 0)
  have hfits0 := fits_entered hm.fits c (asking 12 dstva 0 0 0)
  have hf0 := hf.entered hm.wf (Or.inr rfl) hm.live (asking 12 dstva 0 0 0)
  have hcur0 : (entered m.kernel c (asking 12 dstva 0 0 0)).curenv = some c.val := rfl
  have hst0 : ((entered m.kernel c (asking 12 dstva 0 0 0)).envs a).envStatus = .ENV_RUNNABLE := by
    simp only [entered, Kernel.setEnv, Function.update_of_ne hf.ne]
    exact hst
  have hlist0 : (entered m.kernel c (asking 12 dstva 0 0 0)).pageFreeList
      = m.kernel.pageFreeList := rfl
  generalize hk : entered m.kernel c (asking 12 dstva 0 0 0) = k at hwf0 hfits0 hf0 hcur0 hst0 hlist0
  have hwf1 := hwf0.waiting hf0.child dstva
  have hf1 : Family (waiting k c dstva) a c := by
    apply hf0.setEnv hwf0 (Or.inr rfl) hf0.child
    · simp
    · rfl
    · exact ⟨rfl, rfl⟩
  have hcur1 : (waiting k c dstva).curenv = some c.val := hcur0
  have hst1 : ((waiting k c dstva).envs a).envStatus = .ENV_RUNNABLE := by
    rw [waiting, k.setEnv_envs_of_ne _ hf.ne]
    exact hst0
  have hself1 : ((waiting k c dstva).envs c).envStatus = .ENV_NOT_RUNNABLE
      ∧ ((waiting k c dstva).envs c).envIpcRecving = true
      ∧ ((waiting k c dstva).envs c).envIpcDstva
        = (if dstva.toNat ≥ UTOP then BitVec.ofNat 32 KERNBASE else dstva) := by
    rw [waiting, k.setEnv_envs_self]
    exact ⟨rfl, rfl, rfl⟩
  have hpg1 : (waiting k c dstva).pgdir c = k.pgdir c := by
    rw [waiting, Kernel.setEnv_pgdir, if_neg (by simp), Kernel.pgdir, if_neg hf0.child.2]
  have hslot : (waiting k c dstva).slotRef = k.slotRef := (Kernel.setEnv_views hpg1).2.2.2
  have hwait : sysIpcRecv dstva k = (do sysYield; pure 0 : Prog Kernel Word) (waiting k c dstva) :=
    sysIpcRecv_waits hcur0 hva
  have hlist1 : (waiting k c dstva).pageFreeList = m.kernel.pageFreeList := hlist0
  generalize waiting k c dstva = w at hwf1 hf1 hcur1 hst1 hself1 hslot hwait hlist1
  obtain ⟨fl, hfl⟩ := hwf1.env
  have hyield : (schedYield : Prog Kernel Unit) w = .error (.leave (switchTo w a)) := by
    apply schedYield_only hf1.parent.1 hst1
    · intro e he hea
      by_cases hec : e = c.val
      · rw [hec, hself1.1]
        simp
      · exact hf1.others e he hea hec
    · exact hf1.isCurrent.2 hcur1
    · exact hfl.pgdir a hf1.parent
  have hcall : Syscall.handler (fun _ => smallImage) dstva 0 0 0 0 .SYS_ipc_recv
      { m.on 0 with kernel := entered m.kernel c (asking 12 dstva 0 0 0) }
      = .error (.leave { m.on 0 with kernel := switchTo w a }) := by
    have hrun : sysIpcRecv dstva k = .error (.leave (switchTo w a)) :=
      hwait.trans (bind_of_error hyield)
    rw [Syscall.handler, onKernel]
    simp only [hk, hrun]
  have hfits1 : Fits (bootAvail 16) w := by
    intro q hq
    rw [Kernel.refs, hslot]
    exact hfits0 q hq
  obtain ⟨m', hstep, hm', hkernel⟩ := hm.switch_step rfl (by simp) (fun hset => by cases hset) hcall hf1.parent hwf1 hfits1
  use m', hstep, hm'
  rw [hkernel]
  refine ⟨hf1.switchTo hwf1 (Or.inr hcur1) (Or.inl rfl) hf1.parent, ?_, ?_, ?_⟩
  · obtain ⟨_, _, henv, -⟩ := switchTo_envs w a c
    rw [henv]
    exact hself1.2.1
  · obtain ⟨_, _, henv, -⟩ := switchTo_envs w a c
    rw [henv]
    exact hself1.2.2
  · rw [switchTo_frame]
    exact hlist1

/-- The child waits for a page at the address `0`, the parent runs, and no page is free. -/
theorem exists_at_waiting :
  ∃ m a c, At m a ∧ Family m.kernel a c ∧ (m.kernel.envs c).envIpcRecving = true
    ∧ (m.kernel.envs c).envIpcDstva = 0 ∧ m.kernel.pageFreeList = none
  := by
  obtain ⟨m, a, c, hm, hf, hst, hnone⟩ := exists_at_child
  have hva : ¬ ((0 : Word).toNat < UTOP ∧ (0 : Word).toNat % PGSIZE ≠ 0) := by decide
  obtain ⟨m', -, hm', hf', hrecv, hdst, hlist⟩ := hm.receive_step hf hst hva
  exact ⟨m', a, c, hm', hf', hrecv, hdst, hlist.trans hnone⟩

/-- The child waits for a page at the address `0`, the parent runs, and a page is free. -/
theorem exists_at_expecting :
  ∃ m a c, At m a ∧ Family m.kernel a c ∧ (m.kernel.envs c).envIpcRecving = true
    ∧ (m.kernel.envs c).envIpcDstva = 0 ∧ m.kernel.pageFreeList ≠ none
  := by
  obtain ⟨m, a, c, hm, hf, hst, hroom⟩ := exists_at_runnable
  obtain ⟨m1, -, hm1, hf1, hst1, hlist1⟩ := hm.yield_step hf hst
  have hva : ¬ ((0 : Word).toNat < UTOP ∧ (0 : Word).toNat % PGSIZE ≠ 0) := by decide
  obtain ⟨m2, -, hm2, hf2, hrecv, hdst, hlist2⟩ := hm1.receive_step hf1 hst1 hva
  refine ⟨m2, a, c, hm2, hf2, hrecv, hdst, ?_⟩
  rw [hlist2, hlist1]
  exact hroom

/-- The parent sends the child, which waits, a value without a page, and goes on. -/
theorem At.send_step {m : Machine} {a : Nat} {c : Fin NENV} (hm : At m a)
    (hf : Family m.kernel a c) (hrecv : (m.kernel.envs c).envIpcRecving = true) {envid : Word}
    (hid : (m.kernel.envs c).envId = envid) (value : Word) {srcva : Word}
    (hva : ¬ srcva.toNat < UTOP) :
  sysIpcTrySend envid value srcva 0 (entered m.kernel a (asking 11 envid value srcva 0))
    = .ok (0, delivered (entered m.kernel a (asking 11 envid value srcva 0)) a c value 0)
  ∧ ∃ m', Step (fun _ => smallImage) m 0 (.trap (asking 11 envid value srcva 0)) m' ∧ At m' a
    ∧ Family m'.kernel a c ∧ (m'.kernel.envs c).envStatus = .ENV_RUNNABLE
  := by
  have hf0 := hf.entered hm.wf (Or.inl rfl) hm.live (asking 11 envid value srcva 0)
  have hcur0 : (entered m.kernel a (asking 11 envid value srcva 0)).curenv = some a := rfl
  have henv0 : (entered m.kernel a (asking 11 envid value srcva 0)).envs c = m.kernel.envs c := by
    simp only [entered, Kernel.setEnv, Function.update_of_ne hf.ne.symm]
  have hsend : sysIpcTrySend envid value srcva 0 (entered m.kernel a (asking 11 envid value srcva 0))
      = .ok (0, delivered (entered m.kernel a (asking 11 envid value srcva 0)) a c value 0) := by
    have hfind := hf0.findEnv false
    rw [henv0, hid] at hfind
    rw [sysIpcTrySend, bind_of_eq (envid2env_eq hcur0 envid false), hfind]
    simp only
    rw [get_bind, henv0, if_neg (by rw [hrecv]; simp), if_neg hva]
    exact setIpcPerm_received hcur0 value 0
  use hsend
  have hcall : Syscall.handler (fun _ => smallImage) envid value srcva 0 0 .SYS_ipc_try_send
      { m.on 0 with kernel := entered m.kernel a (asking 11 envid value srcva 0) }
      = .ok (0, { m.on 0 with
        kernel := delivered (entered m.kernel a (asking 11 envid value srcva 0)) a c value 0 }) := by
    rw [Syscall.handler, onKernel]
    simp only [hsend]
  rw [delivered, henv0] at hcall
  obtain ⟨m', hstep, hm', hf', henv, -⟩ :=
    hm.change_step hf rfl (by simp) (fun hset => by cases hset) hcall (by simp) rfl ⟨rfl, rfl⟩
  use m', hstep, hm', hf'
  rw [henv]

end Root

end Jos
