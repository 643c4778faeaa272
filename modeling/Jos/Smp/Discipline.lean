import Jos.Smp.Lock
import Jos.Smp.Sched

/-!
# The discipline of the big kernel lock

Whatever a processor executes takes the lock only when it does not hold it, works only while
it holds it, and gives it back only then.  This is a property of what is executed, shown for
each function of the kernel; it does not depend on which environments there are.  That the
lock keeps the processors apart then follows for every interleaving of their steps.
-/

namespace Jos.Smp

open Bytes Prog Spinlock

/-! ### Lawful code -/

/-- The processor `c` leaves what is kept for the other processors alone, and the lock. -/
structure Own (c : Nat) (s s' : State) : Prop where
  cpus : ∀ c', c' ≠ c → s'.cpus c' = s.cpus c'
  kernelLock : s'.kernelLock = s.kernelLock

/-- Where a trap with the frame `tf` can be taken: in user mode, while the processor is
halted, or while it works in the kernel. -/
inductive Origin (tf : Trapframe) : Phase → CpuInfo → Prop where
  | user {info : CpuInfo} (hcs : tf.tfCs &&& 3 = 3) (hst : info.cpuStatus = .CPU_STARTED) :
      Origin tf .outside info
  | halted {info : CpuInfo} (hcs : tf.tfCs = GD_KT) (hst : info.cpuStatus = .CPU_HALTED) :
      Origin tf .outside info
  | kernel {info : CpuInfo} (hcs : tf.tfCs = GD_KT) (hst : info.cpuStatus = .CPU_STARTED) :
      Origin tf .inside info

/-- What the processor `c` may execute in a phase of taking the lock and giving it back, with
what is kept for it and its interrupt flag. -/
inductive Code.Lawful (c : Nat) : Phase → CpuInfo → Bool → Code → Prop where
  | off {info : CpuInfo} {b : Bool} : Lawful c .outside info b .off
  | user {info : CpuInfo} {b : Bool} (hst : info.cpuStatus = .CPU_STARTED) :
      Lawful c .outside info b .user
  | hlt {info : CpuInfo} {b : Bool} (hst : info.cpuStatus = .CPU_HALTED) :
      Lawful c .outside info b .hlt
  | enter {p : Phase} {info : CpuInfo} {d : Decisions} {tf : Trapframe} (h : Origin tf p info) :
      Lawful c p info false (.enter d tf)
  | xchgStarted {p : Phase} {info : CpuInfo} {d : Decisions} {tf : Trapframe}
      (h : Origin tf p info) : Lawful c p info false (.xchgStarted d tf)
  | assertNoIf {p : Phase} {info : CpuInfo} {k : Code} (h : Lawful c p info false k) :
      Lawful c p info false (.assertNoIf k)
  | lock {info : CpuInfo} {k : Code} (h : Lawful c .inside info false k) :
      Lawful c .outside info false (.lock k)
  | spin {info : CpuInfo} {k : Code} (h : Lawful c .inside info false k) :
      Lawful c .outside info false (.spin k)
  | record {info : CpuInfo} {k : Code} (h : Lawful c .inside info false k) :
      Lawful c .taken info false (.record k)
  | work {info : CpuInfo} {f : State → State} {k : State → Code}
      (hst : info.cpuStatus = .CPU_STARTED)
      (hown : ∀ s, s.cpunum = c → s.cpus c = info → Own c s (f s))
      (h : ∀ s, s.cpunum = c → s.cpus c = info → Lawful c .inside ((f s).cpus c) false (k s)) :
      Lawful c .inside info false (.work f k)
  | push {info : CpuInfo} {d : Decisions} {argc argobt : Word} {k : Word → Code}
      (hst : info.cpuStatus = .CPU_STARTED) (h : ∀ r, Lawful c .inside info false (k r)) :
      Lawful c .inside info false (.push d argc argobt k)
  | fault {info : CpuInfo} (hst : info.cpuStatus = .CPU_STARTED) :
      Lawful c .inside info false .fault
  | xchgHalted {info : CpuInfo} {k : Code}
      (h : Lawful c .inside { info with cpuStatus := .CPU_HALTED } false k) :
      Lawful c .inside info false (.xchgHalted k)
  | unlock {info : CpuInfo} {k : Code} (h : Lawful c .outside info false k) :
      Lawful c .inside info false (.unlock k)
  | clear {info : CpuInfo} {k : Code} (h : Lawful c .outside info false k) :
      Lawful c .inside info false (.clear k)
  | release {info : CpuInfo} {k : Code} (h : Lawful c .outside info false k) :
      Lawful c .cleared info false (.release k)
  | popTf {info : CpuInfo} (hst : info.cpuStatus = .CPU_STARTED) (hcur : info.cpuEnv ≠ none) :
      Lawful c .outside info false .popTf
  | sti {info : CpuInfo} (hst : info.cpuStatus = .CPU_HALTED) :
      Lawful c .outside info false .sti
  | panic {info : CpuInfo} {msg : String} (hst : info.cpuStatus = .CPU_STARTED) :
      Lawful c .inside info false (.panic msg)
  | monitor {info : CpuInfo} (hst : info.cpuStatus = .CPU_STARTED) :
      Lawful c .inside info false .monitor
  | dead {p : Phase} {info : CpuInfo} : Lawful c p info false .dead

/-- Nothing that is kept for the processors changes, and the lock does not. -/
structure SameCpus (s s' : State) : Prop where
  cpus : s'.cpus = s.cpus
  kernelLock : s'.kernelLock = s.kernelLock

theorem sameCpus_composes :
  Composes SameCpus
  := ⟨fun _ => ⟨rfl, rfl⟩,
    fun h h' => ⟨h'.cpus.trans h.cpus, h'.kernelLock.trans h.kernelLock⟩⟩

namespace Code

variable {c : Nat} {info : CpuInfo}

/-- What a function that was run leaves behind, and what is executed after it. -/
theorem lawful_after {α : Type} {m : Prog State α} {k : α → Code} {s : State}
    (hst : (s.cpus c).cpuStatus = .CPU_STARTED)
    (h : m.MayEnd s (fun a s' => Own c s s' ∧ Lawful c .inside (s'.cpus c) false (k a))
      (fun _ => False)) :
  Own c s (after m s) ∧ Lawful c .inside ((after m s).cpus c) false (goOn m k s)
  := by
  rw [after, goOn]
  cases heq : m s with
  | ok r => exact h.of_eq heq
  | error e =>
      cases e with
      | panic msg => exact ⟨⟨fun _ _ => rfl, rfl⟩, .panic hst⟩
      | fault addr => exact ⟨⟨fun _ _ => rfl, rfl⟩, .fault hst⟩
      | leave s' => exact (h.of_leave heq).elim

/-- To call a function is lawful if it is lawful to go on after it. -/
theorem lawful_call {α : Type} {m : Prog State α} {k : α → Code}
    (hst : info.cpuStatus = .CPU_STARTED)
    (h : ∀ s, s.cpunum = c → s.cpus c = info → m.MayEnd s
      (fun a s' => Own c s s' ∧ Lawful c .inside (s'.cpus c) false (k a)) (fun _ => False)) :
  Lawful c .inside info false (call m k)
  := by
  have hafter : ∀ s, s.cpunum = c → s.cpus c = info →
      Own c s (after m s) ∧ Lawful c .inside ((after m s).cpus c) false (goOn m k s) := by
    intro s hnum hinfo
    exact lawful_after (hinfo ▸ hst) (h s hnum hinfo)
  apply Lawful.work hst
  · exact fun s hnum hinfo => (hafter s hnum hinfo).1
  · exact fun s hnum hinfo => (hafter s hnum hinfo).2

/-- A function that changes nothing that is kept for the processors may be called. -/
theorem lawful_call_keeps {α : Type} {m : Prog State α} {k : α → Code}
    (hst : info.cpuStatus = .CPU_STARTED) (hm : Keeps SameCpus m)
    (hk : ∀ a, Lawful c .inside info false (k a)) :
  Lawful c .inside info false (call m k)
  := by
  apply lawful_call hst
  intro s hnum hinfo
  apply (hm s).mono
  · intro a s' hsame
    constructor
    · exact ⟨fun c' _ => congrFun hsame.cpus c', hsame.kernelLock⟩
    · rw [hsame.cpus, hinfo]
      exact hk a
  · exact fun _ h => h

/-- The data may be read. -/
theorem lawful_read {k : State → Code} (hst : info.cpuStatus = .CPU_STARTED)
    (hk : ∀ s, Lawful c .inside info false (k s)) :
  Lawful c .inside info false (call get k)
  := lawful_call_keeps hst (keeps_get sameCpus_composes) hk

/-- The current environment may be left. -/
theorem lawful_clearCurenv {k : Code} (hst : info.cpuStatus = .CPU_STARTED)
    (hk : Lawful c .inside { info with cpuEnv := none } false k) :
  Lawful c .inside info false (call (modify (fun s => s.setCurenv none)) (fun _ => k))
  := by
  apply lawful_call hst
  rintro s rfl hinfo
  rw [mayEnd_modify]
  constructor
  · refine ⟨?_, rfl⟩
    intro c' hc'
    simp only [State.setCurenv, State.setCpu, Function.update_of_ne hc']
  · simp only [State.setCurenv, State.setCpu, Function.update_self]
    rw [hinfo]
    exact hk

end Code

/-! ### Functions that are called -/

theorem same_pure {α : Type} (a : α) :
  Keeps SameCpus (pure a : Prog State α)
  := keeps_pure sameCpus_composes a

theorem same_bind {α β : Type} {m : Prog State α} {f : α → Prog State β} (hm : Keeps SameCpus m)
    (hf : ∀ a, Keeps SameCpus (f a)) :
  Keeps SameCpus (m >>= f)
  := keeps_bind sameCpus_composes hm hf

theorem same_get_bind {α : Type} {f : State → Prog State α} (hf : ∀ s, Keeps SameCpus (f s)) :
  Keeps SameCpus (get >>= f)
  := same_bind (keeps_get sameCpus_composes) hf

theorem same_setEnv {f : State → Nat} {g : State → Env} :
  Keeps SameCpus (modify (fun s => s.setEnv (f s) (g s)))
  := keeps_modify (fun _ => ⟨rfl, rfl⟩)

theorem keeps_curenv :
  Keeps SameCpus curenv
  := by
  apply same_get_bind
  intro s
  exact keeps_orElse sameCpus_composes _ (keeps_fault 0)

theorem keeps_envid2env (envid : Word) (checkperm : Bool) :
  Keeps SameCpus (envid2env envid checkperm)
  := by
  rw [envid2env]
  apply keeps_ite
  · apply same_get_bind
    exact fun s => same_pure _
  · apply same_get_bind
    intro s
    apply keeps_ite
    · exact same_pure _
    · apply keeps_ite
      · apply same_bind keeps_curenv
        intro cur
        apply keeps_ite
        · exact same_pure _
        · exact same_pure _
      · exact same_pure _

theorem keeps_envAlloc (d : Decisions) (parentId : Word) :
  Keeps SameCpus (envAlloc d parentId)
  := by
  apply same_get_bind
  intro s
  split
  case h_1 => exact same_pure _
  case h_2 e _ =>
    apply keeps_ite
    · exact same_pure _
    · apply same_bind same_setEnv
      intro _
      apply same_bind
      · exact keeps_modify (fun _ => ⟨rfl, rfl⟩)
      · exact fun _ => same_pure _

theorem keeps_envGuestAlloc (d : Decisions) (parentId : Word) :
  Keeps SameCpus (envGuestAlloc d parentId)
  := by
  apply same_get_bind
  intro s
  split
  case h_1 => exact same_pure _
  case h_2 e _ =>
    apply keeps_ite
    · exact same_pure _
    · apply keeps_ite
      · apply same_bind same_setEnv
        exact fun _ => same_pure _
      · apply same_bind same_setEnv
        intro _
        apply same_bind
        · exact keeps_modify (fun _ => ⟨rfl, rfl⟩)
        · exact fun _ => same_pure _

theorem keeps_loadIcode (d : Decisions) (e : Nat) :
  Keeps SameCpus (loadIcode d e)
  := keeps_ite same_setEnv (keeps_panic _)

theorem keeps_kernStores (d : Decisions) :
  Keeps SameCpus (kernStores d)
  := keeps_ite (same_pure ()) (keeps_panic _)

theorem keeps_envCreate (d : Decisions) (type : EnvType) :
  Keeps SameCpus (envCreate d type)
  := by
  apply same_bind (keeps_envAlloc d 0)
  intro r
  cases r with
  | error _ => exact keeps_fault 0
  | ok e =>
      apply same_bind (keeps_loadIcode d e)
      exact fun _ => same_setEnv

theorem keeps_envFree (e : Nat) :
  Keeps SameCpus (envFree e)
  := by
  apply same_bind
  · exact keeps_modify (fun _ => ⟨rfl, rfl⟩)
  · intro _
    apply same_get_bind
    intro s
    apply keeps_ite
    · exact keeps_fault 0
    · exact keeps_modify (fun _ => ⟨rfl, rfl⟩)

theorem keeps_initNew (f : Env → Env) (r : Except Word Nat) :
  Keeps SameCpus (initNew f r)
  := by
  cases r with
  | error r => exact same_pure r
  | ok e =>
      apply same_bind same_setEnv
      intro _
      apply same_get_bind
      exact fun s => same_pure _

theorem keeps_sysEnvcreate (d : Decisions) :
  Keeps SameCpus (sysEnvcreate d)
  := by
  apply same_bind (keeps_envCreate d _)
  exact fun _ => same_pure _

theorem keeps_sysEnvMakeguest (d : Decisions) (entryloc : Word) :
  Keeps SameCpus (sysEnvMakeguest d entryloc)
  := by
  apply same_bind keeps_curenv
  intro cur
  apply same_get_bind
  intro s
  apply same_bind (keeps_envGuestAlloc d _)
  exact fun r => keeps_initNew _ r

theorem keeps_sysGetenvid :
  Keeps SameCpus sysGetenvid
  := by
  apply same_bind keeps_curenv
  intro cur
  apply same_get_bind
  exact fun s => same_pure _

theorem keeps_sysExofork (d : Decisions) :
  Keeps SameCpus (sysExofork d)
  := by
  apply same_bind keeps_curenv
  intro cur
  apply same_get_bind
  intro s
  apply same_bind (keeps_envAlloc d _)
  exact fun r => keeps_initNew _ r

theorem keeps_sysEnvSetStatus (envid status : Word) :
  Keeps SameCpus (sysEnvSetStatus envid status)
  := by
  rw [sysEnvSetStatus]
  split
  case h_1 => exact same_pure _
  case h_2 st _ =>
    apply same_bind (keeps_envid2env _ _)
    intro r
    cases r with
    | none => exact same_pure _
    | some e =>
        apply same_bind same_setEnv
        exact fun _ => same_pure _

theorem keeps_sysEnvSetPgfaultUpcall (envid func : Word) :
  Keeps SameCpus (sysEnvSetPgfaultUpcall envid func)
  := by
  apply same_bind (keeps_envid2env _ _)
  intro r
  cases r with
  | none => exact same_pure _
  | some e =>
      apply same_bind same_setEnv
      exact fun _ => same_pure _

theorem keeps_sysIpcTrySend (d : Decisions) (envid value srcva perm : Word) :
  Keeps SameCpus (sysIpcTrySend d envid value srcva perm)
  := by
  apply same_bind (keeps_envid2env _ _)
  intro r
  cases r with
  | none => exact same_pure _
  | some e =>
      apply same_get_bind
      intro s
      apply keeps_ite
      · exact same_pure _
      · split
        case h_1 => exact same_pure _
        case h_2 =>
          apply same_bind keeps_curenv
          intro cur
          apply same_bind same_setEnv
          exact fun _ => same_pure _

theorem keeps_setEax (cur : Option Nat) (r : Word) :
  Keeps SameCpus (setEax cur r)
  := by
  cases cur with
  | none => exact same_pure ()
  | some cur => exact same_setEnv

/-! ### The functions of the kernel -/

namespace Code

variable {c : Nat} {info : CpuInfo}

/-- The processor is left with an environment of its own. -/
theorem lawful_envRun (hst : info.cpuStatus = .CPU_STARTED) (e : Nat) :
  Lawful c .inside info false (envRun e)
  := by
  apply lawful_call hst
  rintro s rfl hinfo
  rw [switchOver, mayEnd_bind, mayEnd_get, mayEnd_ite]
  constructor
  · intro _
    apply (switchTo_ok s e).mono
    · rintro _ s' ⟨h, -⟩
      constructor
      · exact ⟨h.cpus, h.kernelLock⟩
      · rw [h.self, hinfo]
        apply Lawful.unlock
        exact .popTf hst (by simp)
    · exact fun _ h => h
  · intro hsame
    rw [mayEnd_pure]
    constructor
    · exact ⟨fun _ _ => rfl, rfl⟩
    · rw [hinfo]
      apply Lawful.unlock
      apply Lawful.popTf hst
      rintro hnone
      apply hsame
      unfold State.switches
      rw [State.curenv, hinfo, hnone]

theorem lawful_schedHalt (hst : info.cpuStatus = .CPU_STARTED) :
  Lawful c .inside info false schedHalt
  := by
  apply lawful_read hst
  intro s
  split
  · apply lawful_clearCurenv hst
    apply Lawful.xchgHalted
    apply Lawful.unlock
    exact .sti rfl
  · exact .monitor hst

theorem lawful_schedYield (hst : info.cpuStatus = .CPU_STARTED) :
  Lawful c .inside info false schedYield
  := by
  apply lawful_read hst
  intro s
  split
  · exact lawful_envRun hst _
  · exact lawful_schedHalt hst

/-- It does not matter whether `env_destroy` returns. -/
theorem lawful_envDestroy (hst : info.cpuStatus = .CPU_STARTED) (e : Nat) {k : Code}
    (hk : Lawful c .inside info false k) :
  Lawful c .inside info false (envDestroy e k)
  := by
  apply lawful_read hst
  intro s
  split
  · exact lawful_call_keeps hst same_setEnv (fun _ => hk)
  · apply lawful_call_keeps hst (keeps_envFree e)
    intro _
    apply lawful_read hst
    intro s'
    split
    · apply lawful_clearCurenv hst
      exact lawful_schedYield hst
    · exact hk

theorem lawful_userMemAssert (hst : info.cpuStatus = .CPU_STARTED) (d : Decisions) (e : Nat)
    {k : Code} (hk : Lawful c .inside info false k) :
  Lawful c .inside info false (userMemAssert d e k)
  := by
  rw [userMemAssert]
  split
  · exact hk
  · exact lawful_envDestroy hst e hk

/-- What is written below the stack pointer comes between two parts of `env_replace`. -/
theorem lawful_envReplace (hst : info.cpuStatus = .CPU_STARTED) (d : Decisions) (type : EnvType)
    (argc argobt : Word) {k : Code} (hk : Lawful c .inside info false k) :
  Lawful c .inside info false (envReplace d type argc argobt k)
  := by
  apply lawful_call_keeps hst keeps_curenv
  intro cur
  apply lawful_call_keeps hst (keeps_loadIcode d cur)
  intro _
  apply Lawful.push hst
  intro ust
  apply lawful_call_keeps hst keeps_curenv
  intro cur'
  exact lawful_call_keeps hst same_setEnv (fun _ => hk)

section Calls

variable (hst : info.cpuStatus = .CPU_STARTED) {k : Word → Code}
  (hk : ∀ r, Lawful c .inside info false (k r))
include hst hk

theorem lawful_sysCputs (d : Decisions) :
  Lawful c .inside info false (sysCputs d k)
  := by
  apply lawful_call_keeps hst keeps_curenv
  intro cur
  exact lawful_userMemAssert hst d cur (hk 0)

theorem lawful_sysEnvreplace (d : Decisions) (x args argc : Word) :
  Lawful c .inside info false (sysEnvreplace d x args argc k)
  := by
  rw [sysEnvreplace]
  split
  · exact lawful_envReplace hst d _ argc args (hk 1)
  · split
    · exact lawful_envReplace hst d _ argc args (hk 1)
    · exact hk 1

theorem lawful_sysEnvDestroy (envid : Word) :
  Lawful c .inside info false (sysEnvDestroy envid k)
  := by
  apply lawful_call_keeps hst (keeps_envid2env envid true)
  intro r
  cases r with
  | none => exact hk _
  | some e => exact lawful_envDestroy hst e (hk 0)

theorem lawful_sysIpcRecv (dstva : Word) :
  Lawful c .inside info false (sysIpcRecv dstva k)
  := by
  rw [sysIpcRecv]
  split
  · exact hk _
  · apply lawful_call_keeps hst keeps_curenv
    intro cur
    apply lawful_call_keeps hst same_setEnv
    exact fun _ => lawful_schedYield hst

/-- Every system call is lawful, whatever its arguments are. -/
theorem lawful_syscall (d : Decisions) (syscallno a1 a2 a3 a4 : Word) :
  Lawful c .inside info false (syscall d syscallno a1 a2 a3 a4 k)
  := by
  rw [syscall]
  split
  case h_1 => exact lawful_sysCputs hst hk d
  case h_2 => exact lawful_call_keeps hst (same_pure _) hk
  case h_3 => exact lawful_call_keeps hst keeps_sysGetenvid hk
  case h_4 => exact lawful_sysEnvDestroy hst hk a1
  case h_5 => exact lawful_call_keeps hst (same_pure _) hk
  case h_6 => exact lawful_call_keeps hst (same_pure _) hk
  case h_7 => exact lawful_call_keeps hst (same_pure _) hk
  case h_8 => exact lawful_call_keeps hst (keeps_sysExofork d) hk
  case h_9 => exact lawful_call_keeps hst (keeps_sysEnvSetStatus a1 a2) hk
  case h_10 => exact lawful_call_keeps hst (keeps_sysEnvSetPgfaultUpcall a1 a2) hk
  case h_11 => exact lawful_schedYield hst
  case h_12 => exact lawful_call_keeps hst (keeps_sysIpcTrySend d a1 a2 a3 a4) hk
  case h_13 => exact lawful_sysIpcRecv hst hk a1
  case h_14 => exact lawful_call_keeps hst (keeps_sysEnvcreate d) hk
  case h_15 => exact lawful_sysEnvreplace hst hk d a1 a2 a3
  case h_16 => exact lawful_call_keeps hst (keeps_sysEnvMakeguest d a2) hk
  case h_17 => exact hk _

end Calls

section Traps

variable (hst : info.cpuStatus = .CPU_STARTED)
include hst

theorem lawful_pageFaultHandler (d : Decisions) (tf : Trapframe) {k : Code}
    (hk : Lawful c .inside info false k) :
  Lawful c .inside info false (pageFaultHandler d tf k)
  := by
  rw [pageFaultHandler]
  split
  · exact .panic hst
  · apply lawful_call_keeps hst keeps_curenv
    intro cur
    apply lawful_read hst
    intro s
    split
    · apply lawful_userMemAssert hst
      apply lawful_call_keeps hst (keeps_kernStores d)
      intro _
      apply lawful_call_keeps hst same_setEnv
      exact fun _ => lawful_envRun hst cur
    · exact lawful_envDestroy hst cur hk

/-- Every trap is handled lawfully. -/
theorem lawful_trapDispatch (d : Decisions) (cur : Option Nat) (tf : Trapframe) {k : Code}
    (hk : Lawful c .inside info false k) :
  Lawful c .inside info false (trapDispatch d cur tf k)
  := by
  rw [trapDispatch]
  split
  case h_1 => exact lawful_pageFaultHandler hst d tf hk
  case h_2 => exact .monitor hst
  case h_3 =>
    apply lawful_syscall hst
    intro r
    exact lawful_call_keeps hst (keeps_setEax cur r) (fun _ => hk)
  case h_4 => exact hk
  case h_5 => exact hk
  case h_6 => exact lawful_schedYield hst
  case h_7 =>
    split
    · exact .panic hst
    · apply lawful_call_keeps hst keeps_curenv
      exact fun cur => lawful_envDestroy hst cur hk

theorem lawful_trapReturn :
  Lawful c .inside info false trapReturn
  := by
  apply lawful_read hst
  intro s
  split
  · split
    · exact lawful_envRun hst _
    · exact lawful_schedYield hst
  · exact lawful_schedYield hst

/-- A trap from user mode, also one that finds its environment dying. -/
theorem lawful_trapUser (d : Decisions) (tf : Trapframe) :
  Lawful c .inside info false (trapUser d tf)
  := by
  apply lawful_read hst
  intro s
  split
  case h_1 => exact .panic hst
  case h_2 cur _ =>
    split
    · apply lawful_call_keeps hst (keeps_envFree cur)
      intro _
      apply lawful_clearCurenv hst
      exact lawful_schedYield hst
    · apply lawful_call_keeps hst same_setEnv
      intro _
      exact lawful_trapDispatch hst d _ tf (lawful_trapReturn hst)

/-- The lock is taken for a trap from user mode only. -/
theorem lawful_trapStarted_user (d : Decisions) {tf : Trapframe} (hcs : tf.tfCs &&& 3 = 3) :
  Lawful c .outside info false (trapStarted d tf)
  := by
  apply Lawful.assertNoIf
  rw [if_pos hcs]
  apply Lawful.lock
  exact lawful_trapUser hst d tf

theorem lawful_trapStarted_kernel (d : Decisions) {tf : Trapframe} (hcs : tf.tfCs = GD_KT) :
  Lawful c .inside info false (trapStarted d tf)
  := by
  apply Lawful.assertNoIf
  have hnot : ¬ tf.tfCs &&& 3 = 3 := by
    rw [hcs]
    decide
  rw [if_neg hnot]
  exact lawful_trapDispatch hst d none tf (lawful_trapReturn hst)

theorem lawful_mpMain :
  Lawful c .outside info false mpMain
  := by
  apply Lawful.lock
  exact lawful_schedYield hst

theorem lawful_i386Init (d : Decisions) :
  Lawful c .inside info false (i386Init d)
  := by
  apply lawful_call_keeps hst (keeps_envCreate d _)
  exact fun _ => lawful_schedYield hst

end Traps

end Code

end Jos.Smp
