import Jos.Lib.Spinlock
import Jos.Smp.Kernel

/-!
# The big kernel lock

The kernel on several processors with the lock itself: what a processor executes is a tree of
steps in which the lock is taken and given back where the code does it.  The steps of all
processors are interleaved, and each step of taking the lock and of giving it back is one of
its own.

A processor works on the kernel's data only while it holds the lock.  The lock is taken in
`trap` and given back in `env_run` or in `sched_halt`, neither of which returns, so that this
is shown of everything a processor can execute from one to the other.

The lock is data of the kernel itself.  `env_replace` writes below a stack pointer that the
program chose, also above `UTOP`, so that this write is a step of its own.
-/

namespace Jos.Smp

open Bytes Prog

/-! ### What a processor executes -/

/-- What a processor is to execute.  What is done with the lock, with the status of the
processor and with its interrupt flag is spelled out, everything else is `work`. -/
inductive Code where
  /-- The processor is not there. -/
  | off
  /-- An environment runs in user mode. -/
  | user
  /-- The processor waits for an interrupt in `sched_halt`. -/
  | hlt
  /-- The start of `trap`, where it is checked whether the kernel panicked. -/
  | enter (d : Decisions) (tf : Trapframe)
  /-- The processor is marked as started, and it is checked whether it was halted. -/
  | xchgStarted (d : Decisions) (tf : Trapframe)
  /-- It is asserted that interrupts are disabled. -/
  | assertNoIf (k : Code)
  /-- The start of `spin_lock`. -/
  | lock (k : Code)
  /-- The flag of the lock is exchanged until it was clear. -/
  | spin (k : Code)
  /-- The processor is recorded as the holder of the lock. -/
  | record (k : Code)
  /-- Some of the kernel's data is read and changed. -/
  | work (f : State → State) (k : State → Code)
  /-- Two words are written below the stack pointer of the current environment. -/
  | push (d : Decisions) (argc argobt : Word) (k : Word → Code)
  /-- Memory is accessed that is not mapped. -/
  | fault
  /-- The processor is marked as halted. -/
  | xchgHalted (k : Code)
  /-- The start of `spin_unlock`. -/
  | unlock (k : Code)
  /-- The record of the holder is cleared. -/
  | clear (k : Code)
  /-- The flag of the lock is exchanged back. -/
  | release (k : Code)
  /-- The registers of the current environment are restored. -/
  | popTf
  /-- Interrupts are enabled in `sched_halt`. -/
  | sti
  /-- The start of `_panic`. -/
  | panic (msg : String)
  /-- The kernel monitor. None of its commands makes it return. -/
  | monitor
  /-- The processor is halted with interrupts disabled, because the kernel panicked. -/
  | dead

namespace Code

/-- The kernel's data after a function was run. -/
def after {α : Type} (m : Prog State α) (s : State) : State :=
  match m s with
  | .ok (_, s') => s'
  | .error (.leave s') => s'
  | .error _ => s

/-- What is executed after a function was run. -/
def goOn {α : Type} (m : Prog State α) (k : α → Code) (s : State) : Code :=
  match m s with
  | .ok (a, _) => k a
  | .error (.panic msg) => .panic msg
  | .error (.fault _) => .fault
  | .error (.leave _) => .user

/-- Run a function of the kernel and go on with what it returns. -/
def call {α : Type} (m : Prog State α) (k : α → Code) : Code :=
  .work (after m) (goOn m k)

/-! ### Scheduling -/

/-- Switch to the environment `e`, unless it is the current one, and leave the kernel. -/
def envRun (e : Nat) : Code :=
  .call (switchOver e) (fun _ => .unlock .popTf)

/-- Whether there is an environment to wait for. -/
def someAlive (s : State) : Bool :=
  (List.range NENV).any (fun i => (s.envs i).envStatus = .ENV_RUNNABLE
    ∨ (s.envs i).envStatus = .ENV_RUNNING ∨ (s.envs i).envStatus = .ENV_DYING)

/-- Halt the processor until it is interrupted. Without an environment to wait for, the
monitor is entered for good. -/
def schedHalt : Code :=
  .call get (fun s =>
    if someAlive s then
      .call (modify (fun s => s.setCurenv none)) (fun _ => .xchgHalted (.unlock .sti))
    else
      .monitor)

/-- The environment the scheduler chooses: the next runnable one in circular order after the
current one, or else the current one if it is still running. -/
def chosen (s : State) : Option Nat :=
  match (List.range NENV).find? (fun i => (s.envs (s.candidate i)).envStatus = .ENV_RUNNABLE) with
  | some i => some (s.candidate i)
  | none =>
      match s.curenv with
      | some cur => if (s.envs cur).envStatus = .ENV_RUNNING then some cur else none
      | none => none

/-- Choose an environment to run and run it. -/
def schedYield : Code :=
  .call get (fun s =>
    match chosen s with
    | some e => envRun e
    | none => schedHalt)

/-- Free the environment `e`, and run another one if it was the current environment. If it
is running on another processor, it is only marked. -/
def envDestroy (e : Nat) (k : Code) : Code :=
  .call get (fun s =>
    if (s.envs e).envStatus = .ENV_RUNNING ∧ s.curenv ≠ some e then
      .call (modify (fun s => s.setEnv e { s.envs e with envStatus := .ENV_DYING })) (fun _ => k)
    else
      .call (envFree e) (fun _ =>
        .call get (fun s =>
          if s.curenv = some e then
            .call (modify (fun s => s.setCurenv none)) (fun _ => schedYield)
          else
            k)))

/-- Destroy the current environment unless it may access a range. -/
def userMemAssert (d : Decisions) (e : Nat) (k : Code) : Code :=
  if d.userMem then k else envDestroy e k

/-- Run another program in the current environment. -/
def envReplace (d : Decisions) (type : EnvType) (argc argobt : Word) (k : Code) : Code :=
  .call curenv (fun cur =>
    .call (loadIcode d cur) (fun _ =>
      .push d argc argobt (fun ust =>
        .call curenv (fun cur =>
          .call (modify (fun s => s.setEnv cur { s.envs cur with
            envTf := { (s.envs cur).envTf with tfEsp := ust }
            envType := type }))
          (fun _ => k)))))

/-! ### System calls -/

/-- Run one of seven programs. The last one is run as a guest. -/
def sysEnvreplace (d : Decisions) (x args argc : Word) (k : Word → Code) : Code :=
  if x.toNat < 6 then
    envReplace d .ENV_TYPE_USER argc args (k 1)
  else if x.toNat = 6 then
    envReplace d .ENV_TYPE_GUEST argc args (k 1)
  else
    k 1

def sysCputs (d : Decisions) (k : Word → Code) : Code :=
  .call curenv (fun cur => userMemAssert d cur (k 0))

def sysEnvDestroy (envid : Word) (k : Word → Code) : Code :=
  .call (envid2env envid true) (fun
    | none => k (-E_BAD_ENV)
    | some e => envDestroy e (k 0))

/-- Wait for a message. -/
def sysIpcRecv (dstva : Word) (k : Word → Code) : Code :=
  if dstva.toNat < UTOP ∧ dstva.toNat % PGSIZE ≠ 0 then
    k (-E_INVAL)
  else
    .call curenv (fun cur =>
      .call (modify (fun s => s.setEnv cur { s.envs cur with
        envIpcDstva := if dstva.toNat < UTOP then dstva else BitVec.ofNat 32 KERNBASE
        envIpcRecving := true
        envStatus := .ENV_NOT_RUNNABLE
        envTf := { (s.envs cur).envTf with
          tfRegs := { (s.envs cur).envTf.tfRegs with regEax := 0 } } }))
      (fun _ => schedYield))

/-- Call the function of a system call. The calls for pages do not change environments. -/
def syscall (d : Decisions) (syscallno a1 a2 a3 a4 : Word) (k : Word → Code) : Code :=
  match syscallno.toNat with
  | 0 => sysCputs d k
  | 1 => .call (pure d.getc) k
  | 2 => .call sysGetenvid k
  | 3 => sysEnvDestroy a1 k
  | 4 | 5 | 6 => .call (pure d.pageCall) k
  | 7 => .call (sysExofork d) k
  | 8 => .call (sysEnvSetStatus a1 a2) k
  | 9 => .call (sysEnvSetPgfaultUpcall a1 a2) k
  | 10 => schedYield
  | 11 => .call (sysIpcTrySend d a1 a2 a3 a4) k
  | 12 => sysIpcRecv a1 k
  | 13 => .call (sysEnvcreate d) k
  | 14 => sysEnvreplace d a1 a2 a3 k
  | 15 => .call (sysEnvMakeguest d a2) k
  | _ => k (-E_NO_SYS)

/-! ### Traps -/

/-- Deliver a page fault to the upcall of the current environment, or destroy it. -/
def pageFaultHandler (d : Decisions) (tf : Trapframe) (k : Code) : Code :=
  if tf.tfCs &&& 3 = 0 then
    .panic "Kernel Page Fault"
  else
    .call curenv (fun cur =>
      .call get (fun s =>
        if (s.envs cur).envPgfaultUpcall ≠ 0 then
          userMemAssert d cur (
            .call (kernStores d) (fun _ =>
              .call (modify (fun s => s.setEnv cur { s.envs cur with
                envTf := { (s.envs cur).envTf with
                  tfEsp := upcallEsp tf.tfEsp
                  tfEip := (s.envs cur).envPgfaultUpcall } }))
              (fun _ => envRun cur)))
        else
          envDestroy cur k))

/-- Handle the trap with the frame `tf`, which is saved in the environment `cur`. -/
def trapDispatch (d : Decisions) (cur : Option Nat) (tf : Trapframe) (k : Code) : Code :=
  match tf.tfTrapno.toNat with
  | 14 => pageFaultHandler d tf k
  | 3 => .monitor
  | 48 =>
      syscall d tf.tfRegs.regEax tf.tfRegs.regEdx tf.tfRegs.regEcx tf.tfRegs.regEbx
        tf.tfRegs.regEdi (fun r => .call (setEax cur r) (fun _ => k))
  | 33 => k
  | 39 => k
  | 32 => schedYield
  | _ =>
      if tf.tfCs = GD_KT then
        .panic "unhandled trap in kernel"
      else
        .call curenv (fun cur => envDestroy cur k)

/-- Go on with the current environment if it is still running, or else with another one. -/
def trapReturn : Code :=
  .call get (fun s =>
    match s.curenv with
    | some cur => if (s.envs cur).envStatus = .ENV_RUNNING then envRun cur else schedYield
    | none => schedYield)

/-- What is done for a trap from user mode once the lock is held. -/
def trapUser (d : Decisions) (tf : Trapframe) : Code :=
  .call get (fun s =>
    match s.curenv with
    | none => .panic "assertion failed: curenv"
    | some cur =>
        if (s.envs cur).envStatus = .ENV_DYING then
          .call (envFree cur) (fun _ =>
            .call (modify (fun s => s.setCurenv none)) (fun _ => schedYield))
        else
          .call (modify (fun s => s.setEnv cur { s.envs cur with envTf := tf })) (fun _ =>
            trapDispatch d (some cur) tf trapReturn))

/-- What is done in `trap` once it is known whether the processor was halted. -/
def trapStarted (d : Decisions) (tf : Trapframe) : Code :=
  .assertNoIf (
    if tf.tfCs &&& 3 = 3 then
      .lock (trapUser d tf)
    else
      trapDispatch d none tf trapReturn)

/-- What an application processor does when it was started. -/
def mpMain : Code :=
  .lock schedYield

/-- What the boot processor does once the application processors were started. -/
def i386Init (d : Decisions) : Code :=
  .call (envCreate d .ENV_TYPE_USER) (fun _ => schedYield)

end Code

/-! ### Several processors -/

/-- All processors, and what they share. -/
structure Machine where
  data : State
  panicstr : Option String := none
  /-- The interrupt flag of each processor. -/
  flIf : Nat → Bool
  code : Nat → Code

namespace Machine

/-- The kernel's data as the processor `c` sees it. -/
def on (m : Machine) (c : Nat) : State :=
  { m.data with cpunum := c }

/-- The big kernel lock. -/
def kernelLock (m : Machine) : Spinlock Nat :=
  m.data.kernelLock

/-- Change the big kernel lock. -/
def setLock (m : Machine) (lk : Spinlock Nat) : Machine :=
  { m with data := { m.data with kernelLock := lk } }

/-- The processor `c` goes on with `k`. -/
def goto (m : Machine) (c : Nat) (k : Code) : Machine :=
  { m with code := Function.update m.code c k }

/-- The processor `c` goes on with `k` and the interrupt flag `b`. -/
def gotoIf (m : Machine) (c : Nat) (b : Bool) (k : Code) : Machine :=
  { m.goto c k with flIf := Function.update m.flIf c b }

/-- Set the status of the processor `c`. -/
def setStatus (m : Machine) (c : Nat) (st : CpuStatus) : Machine :=
  { m with data := (m.on c).setCpu { m.data.cpus c with cpuStatus := st } }

/-- The processor `c` executes its next step. -/
def exec (m : Machine) (c : Nat) : Machine :=
  match m.code c with
  | .off | .user | .hlt | .fault | .monitor | .dead => m
  | .enter d tf => m.goto c (if m.panicstr.isSome then .dead else .xchgStarted d tf)
  | .xchgStarted d tf =>
      (m.setStatus c .CPU_STARTED).goto c
        (if (m.data.cpus c).cpuStatus = .CPU_HALTED then .lock (.trapStarted d tf)
        else .trapStarted d tf)
  | .assertNoIf k =>
      m.goto c (if m.flIf c then .panic "assertion failed: !(read_eflags() & FL_IF)" else k)
  | .lock k =>
      m.goto c (if m.kernelLock.holding c then .panic "cannot acquire: already holding"
        else .spin k)
  | .spin k =>
      if m.kernelLock.locked then m
      else (m.setLock { m.kernelLock with locked := true }).goto c (.record k)
  | .record k => (m.setLock { m.kernelLock with cpu := some c }).goto c k
  | .work f k => { m.goto c (k (m.on c)) with data := f (m.on c) }
  | .push d argc argobt k =>
      { m.goto c (.goOn (pushArgs d argc argobt) k (m.on c)) with
        data := Code.after (pushArgs d argc argobt) (m.on c) }
  | .xchgHalted k => (m.setStatus c .CPU_HALTED).goto c k
  | .unlock k =>
      m.goto c (if m.kernelLock.holding c then .clear k else .panic "spin_unlock")
  | .clear k => (m.setLock { m.kernelLock with cpu := none }).goto c (.release k)
  | .release k => (m.setLock { m.kernelLock with locked := false }).goto c k
  | .popTf =>
      match (m.data.cpus c).cpuEnv with
      | some cur =>
          { m.gotoIf c ((m.data.envs cur).envTf.tfEflags &&& FL_IF ≠ 0) .user with
            data := m.data.setEnv cur { m.data.envs cur with envCpunum := c } }
      | none => m.goto c .fault
  | .sti => m.gotoIf c true .hlt
  | .panic msg => { m.goto c .monitor with panicstr := m.panicstr.or (some msg) }

/-- What can happen on the processor `c`: it executes its next step, or it takes a trap, in
user mode, while it is halted, or while it works in the kernel. -/
inductive Step (c : Nat) (m : Machine) : Machine → Prop where
  | exec : Step c m (m.exec c)
  | user (d : Decisions) (tf : Trapframe) (h : m.code c = .user) (hcs : tf.tfCs &&& 3 = 3) :
      Step c m (m.gotoIf c false (.enter d tf))
  | halted (d : Decisions) (tf : Trapframe) (h : m.code c = .hlt) (hcs : tf.tfCs = GD_KT) :
      Step c m (m.gotoIf c false (.enter d tf))
  | kernel (d : Decisions) (tf : Trapframe)
      (h : (∃ f k, m.code c = .work f k) ∨ (∃ d' argc argobt k, m.code c = .push d' argc argobt k)
        ∨ m.code c = .fault ∨ m.code c = .monitor)
      (hcs : tf.tfCs = GD_KT) :
      Step c m (m.gotoIf c false (.enter d tf))

/-- Any interleaving of the steps of all processors, when each processor makes a step only in a
state with the property `P`. -/
inductive Run (P : Nat → Machine → Prop) (m : Machine) : Machine → Prop where
  | refl : Run P m m
  | step {m' m'' : Machine} {c : Nat} (h : Run P m m') (hP : P c m') (hstep : Step c m' m'') :
      Run P m m''

/-- What the processor `c` writes below the stack pointer of its environment goes below
`UTOP`. -/
def tame (c : Nat) (m : Machine) : Bool :=
  match m.code c, (m.data.cpus c).cpuEnv with
  | .push _ _ _ _, some cur => BelowUTOP (m.data.envs cur).envTf.tfEsp
  | _, _ => true

/-- The application processors were started: the boot processor holds the lock and goes on
in `i386_init`, and the others are about to take it in `mp_main`. -/
structure Started (d : Decisions) (m : Machine) : Prop where
  ncpu : 1 < m.data.ncpu
  lock : m.kernelLock = { locked := true, cpu := some 0 }
  cpus : ∀ c < m.data.ncpu, (m.data.cpus c).cpuStatus = .CPU_STARTED
  flIf : ∀ c, m.flIf c = false
  boot : m.code 0 = .i386Init d
  start : ∀ c < m.data.ncpu, c ≠ 0 → m.code c = .mpMain
  off : ∀ c, m.data.ncpu ≤ c → c ≠ 0 → m.code c = .off

end Machine

end Jos.Smp
