import Jos.Kern.Mmu
import Jos.Kern.State
import Jos.Kern.Env
import Jos.Lib.Spinlock

/-!
# The kernel on several processors

The functions of `kern/env.c`, `kern/sched.c`, `kern/syscall.c` and `kern/trap.c` that
decide which environment runs on which processor.  A processor holds the big kernel lock
from where it enters the kernel to where it leaves it, so that each of these functions is
one step.

What the page tables, the free pages and the devices decide in such a step is an input of
the step: none of the functions reads it for anything but these decisions.

`env_replace` stores two words below a stack pointer that the program chose.  Above `UTOP`
these words may be any data of the kernel, and what they change there is an input as well.
-/

namespace Jos.Smp

open Bytes

/-! ### Data -/

def E_NO_SYS : Word := 7
def E_IPC_NOT_RECV : Word := 8

/-- An environment. -/
structure Env where
  envTf : Trapframe := {}
  envLink : Option Nat := none
  envId : Word := 0
  envParentId : Word := 0
  envType : EnvType := .ENV_TYPE_USER
  envStatus : EnvStatus := .ENV_FREE
  envRuns : Word := 0
  envCpunum : Nat := 0
  /-- Whether there is a page directory. -/
  envPgdir : Bool := false
  envPgfaultUpcall : Word := 0
  envIpcRecving : Bool := false
  envIpcDstva : Word := 0
  envIpcValue : Word := 0
  envIpcFrom : Word := 0
  envIpcPerm : Word := 0

/-- Values of `cpu_status`. -/
inductive CpuStatus where
  | CPU_UNUSED
  | CPU_STARTED
  | CPU_HALTED
  deriving DecidableEq

/-- What the kernel keeps for each processor. -/
structure CpuInfo where
  cpuStatus : CpuStatus := .CPU_UNUSED
  cpuEnv : Option Nat := none

/-- A call of `env_free`: for which environment, on which processor, and what the processors
were doing. -/
structure Freed where
  env : Nat
  cpu : Nat
  cpus : Nat → CpuInfo

/-- The state of the kernel. -/
structure State where
  ncpu : Nat
  cpus : Nat → CpuInfo := fun _ => {}
  /-- The processor that holds the kernel lock. -/
  cpunum : Nat := 0
  envs : Nat → Env := fun _ => {}
  envFreeList : Option Nat := none
  /-- The big kernel lock. -/
  kernelLock : Spinlock Nat := {}
  /-- The calls of `env_free` so far. -/
  freed : List Freed := []

namespace State

/-- Change the environment `e`. -/
def setEnv (s : State) (e : Nat) (env : Env) : State :=
  { s with envs := Function.update s.envs e env }

/-- Change what is kept for the processor that holds the lock. -/
def setCpu (s : State) (info : CpuInfo) : State :=
  { s with cpus := Function.update s.cpus s.cpunum info }

/-- The environment of the processor that holds the lock. -/
def curenv (s : State) : Option Nat :=
  (s.cpus s.cpunum).cpuEnv

/-- Set the environment of the processor that holds the lock. -/
def setCurenv (s : State) (e : Option Nat) : State :=
  s.setCpu { s.cpus s.cpunum with cpuEnv := e }

end State

/-- What is decided outside of these functions while the kernel is entered once. -/
structure Decisions where
  /-- Whether there is a page for a page directory. -/
  setupVm : Bool
  /-- How many of the pages for a guest there are. -/
  guestPages : Nat
  /-- Whether there are pages for the segments of a program, and where it starts. -/
  loads : Bool
  entry : Word
  /-- Whether `user_mem_check` lets a range pass. -/
  userMem : Bool
  /-- Whether what is written to the current environment is mapped. -/
  stores : Bool
  /-- What a word written to the kernel's memory changes, at an address and if it is mapped.
  The data is where it was linked. -/
  poke : Word → Word → State → Option State
  /-- Whether a page is mapped where a message is sent from, and whether it is writeable. -/
  lookup : Option Bool
  /-- Whether `page_insert` succeeds. -/
  inserts : Bool
  /-- What the calls that only change page tables return. -/
  pageCall : Word
  /-- What the console returns. -/
  getc : Word

/-- The current environment. Without one its address is `0`. -/
def curenv : Prog State Nat := do
  let s ← get
  Prog.orElse s.curenv (Prog.fault 0)

/-! ### Identifiers -/

/-- The environment with an identifier, if there is one that the caller may refer to. -/
def envid2env (envid : Word) (checkperm : Bool) : Prog State (Option Nat) := do
  if envid = 0 then
    let s ← get
    pure s.curenv
  else
    let s ← get
    let e := ENVX envid
    if (s.envs e).envStatus = .ENV_FREE ∨ (s.envs e).envId ≠ envid then
      pure none
    else if checkperm = true ∧ s.curenv ≠ some e then
      let cur ← curenv
      if (s.envs e).envParentId ≠ (s.envs cur).envId then
        pure none
      else
        pure (some e)
    else
      pure (some e)

/-- Mark all environments as free and link them in order. -/
def envInit : Prog State Unit := do
  Prog.forUp 0 NENV (fun i => modify (fun s => s.setEnv i { s.envs i with
    envStatus := .ENV_FREE
    envId := 0
    envLink := some (i + 1) }))
  modify (fun s => s.setEnv (NENV - 1) { s.envs (NENV - 1) with envLink := none })
  modify (fun s => { s with envFreeList := some 0 })

/-! ### Creating environments -/

/-- Allocate and initialize a new environment. -/
def envAlloc (d : Decisions) (parentId : Word) : Prog State (Except Word Nat) := do
  let s ← get
  match s.envFreeList with
  | none => pure (.error (-E_NO_FREE_ENV))
  | some e =>
      if d.setupVm = false then
        pure (.error (-E_NO_MEM))
      else
        modify (fun s => s.setEnv e { s.envs e with
          envPgdir := true
          envId := nextEnvId e (s.envs e).envId
          envParentId := parentId
          envType := .ENV_TYPE_USER
          envStatus := .ENV_RUNNABLE
          envRuns := 0
          envTf := initialTf
          envPgfaultUpcall := 0
          envIpcRecving := false })
        modify (fun s => { s with envFreeList := (s.envs e).envLink })
        pure (.ok e)

/-- Allocate and initialize a new guest environment, which needs three pages. The directory
is set before the last two of them are there. -/
def envGuestAlloc (d : Decisions) (parentId : Word) : Prog State (Except Word Nat) := do
  let s ← get
  match s.envFreeList with
  | none => pure (.error (-E_NO_FREE_ENV))
  | some e =>
      if d.guestPages = 0 then
        pure (.error (-E_NO_MEM))
      else if d.guestPages < 3 then
        modify (fun s => s.setEnv e { s.envs e with envPgdir := true })
        pure (.error (-E_NO_MEM))
      else
        modify (fun s => s.setEnv e { s.envs e with
          envPgdir := true
          envId := nextEnvId e (s.envs e).envId
          envParentId := parentId
          envType := .ENV_TYPE_GUEST
          envStatus := .ENV_RUNNABLE
          envRuns := 0
          envTf := {}
          envPgfaultUpcall := 0
          envIpcRecving := false })
        modify (fun s => { s with envFreeList := (s.envs e).envLink })
        pure (.ok e)

/-- Load a program into the environment `e`. -/
def loadIcode (d : Decisions) (e : Nat) : Prog State Unit :=
  if d.loads then
    modify (fun s => s.setEnv e { s.envs e with
      envTf := { (s.envs e).envTf with tfEip := d.entry } })
  else
    Prog.panic "Error happened in region alloc"

/-- Make an environment that runs a program. When none is allocated, the code goes on with
an uninitialized pointer. -/
def envCreate (d : Decisions) (type : EnvType) : Prog State Unit := do
  match ← envAlloc d 0 with
  | .error _ => Prog.fault 0
  | .ok e =>
      loadIcode d e
      modify (fun s => s.setEnv e { s.envs e with envType := type, envParentId := 0 })

/-- Write to the current environment. -/
def kernStores (d : Decisions) : Prog State Unit :=
  if d.stores then pure () else Prog.panic "Kernel Page Fault"

/-- Write a word with the rights of the kernel. -/
def kernStore (d : Decisions) (va v : Word) : Prog State Unit := do
  if va.toNat + 4 ≤ UTOP then
    kernStores d
  else
    let s ← get
    match d.poke va v s with
    | some s' => modify (fun _ => s')
    | none => Prog.panic "Kernel Page Fault"

/-- A stack pointer below which two words are below `UTOP`. -/
def BelowUTOP (esp : Word) : Prop :=
  8 ≤ esp.toNat ∧ esp.toNat ≤ UTOP

instance : DecidablePred BelowUTOP :=
  fun _ => inferInstanceAs (Decidable (_ ∧ _))

/-- Write `argc` and `argobt` below the stack pointer of the current environment, which is
whatever it was when the environment was trapped. -/
def pushArgs (d : Decisions) (argc argobt : Word) : Prog State Word := do
  let cur ← curenv
  let s ← get
  let ust := (s.envs cur).envTf.tfEsp - 8
  kernStore d ust argc
  kernStore d (ust + 4) argobt
  pure ust

/-- Run another program in the current environment. -/
def envReplace (d : Decisions) (type : EnvType) (argc argobt : Word) : Prog State Unit := do
  let cur ← curenv
  loadIcode d cur
  let ust ← pushArgs d argc argobt
  let cur ← curenv
  modify (fun s => s.setEnv cur { s.envs cur with
    envTf := { (s.envs cur).envTf with tfEsp := ust }
    envType := type })

/-! ### Freeing environments -/

/-- Free the environment `e` and all memory it uses. -/
def envFree (e : Nat) : Prog State Unit := do
  modify (fun s => { s with freed := ⟨e, s.cpunum, s.cpus⟩ :: s.freed })
  let s ← get
  if (s.envs e).envPgdir = false then
    Prog.fault 0
  else
    modify (fun s => { s.setEnv e { s.envs e with
      envPgdir := false
      envStatus := .ENV_FREE
      envLink := s.envFreeList } with envFreeList := some e })

/-! ### Running environments -/

/-- The current environment is no longer running. -/
def preempt : Prog State Unit := do
  let s ← get
  match s.curenv with
  | some cur =>
      if (s.envs cur).envStatus = .ENV_RUNNING then
        modify (fun s => s.setEnv cur { s.envs cur with envStatus := .ENV_RUNNABLE })
      else
        pure ()
  | none => pure ()

/-- Make `e` the current environment. -/
def switchTo (e : Nat) : Prog State Unit := do
  preempt
  modify (fun s => (s.setCurenv (some e)).setEnv e { s.envs e with
    envStatus := .ENV_RUNNING
    envRuns := (s.envs e).envRuns + 1 })
  let s ← get
  if (s.envs e).envPgdir = false then
    Prog.panic "PADDR called with invalid kva 00000000"
  else
    pure ()

/-- Whether the environment `e` has another identifier than the current one. -/
def State.switches (s : State) (e : Nat) : Bool :=
  match s.curenv with
  | none => true
  | some cur => (s.envs cur).envId ≠ (s.envs e).envId

/-- Make `e` the current environment unless it has the identifier of the current one. -/
def switchOver (e : Nat) : Prog State Unit := do
  let s ← get
  if s.switches e then
    switchTo e
  else
    pure ()

/-- Switch to the environment `e`, unless it is the current one, and leave the kernel. -/
def envRun {α : Type} (e : Nat) : Prog State α := do
  switchOver e
  let cur ← curenv
  modify (fun s => s.setEnv cur { s.envs cur with envCpunum := s.cpunum })
  Prog.leave

/-- Halt the processor until it is interrupted. Without an environment to wait for, the
monitor is entered for good. -/
def schedHalt {α : Type} : Prog State α := do
  let s ← get
  if (List.range NENV).any (fun i => (s.envs i).envStatus = .ENV_RUNNABLE
      ∨ (s.envs i).envStatus = .ENV_RUNNING ∨ (s.envs i).envStatus = .ENV_DYING) then
    modify (fun s => s.setCpu { cpuStatus := .CPU_HALTED, cpuEnv := none })
    Prog.leave
  else
    Prog.panic "No runnable environments in the system!\n"

/-- The index of the current environment, or `0`. -/
def State.currentEnv (s : State) : Nat :=
  match s.curenv with
  | some cur => ENVX (s.envs cur).envId
  | none => 0

/-- The `i`-th environment the scheduler looks at. -/
def State.candidate (s : State) (i : Nat) : Nat :=
  ((s.currentEnv + 1) % NENV + i) % NENV

/-- Run the next runnable environment in circular order after the current one. -/
def schedYield {α : Type} : Prog State α := do
  let s ← get
  match (List.range NENV).find? (fun i => (s.envs (s.candidate i)).envStatus = .ENV_RUNNABLE) with
  | some i => envRun (s.candidate i)
  | none =>
      match s.curenv with
      | some cur => if (s.envs cur).envStatus = .ENV_RUNNING then envRun cur else schedHalt
      | none => schedHalt

/-- Free the environment `e`, and run another one if it was the current environment. If it
is running on another processor, it is only marked. -/
def envDestroy (e : Nat) : Prog State Unit := do
  let s ← get
  if (s.envs e).envStatus = .ENV_RUNNING ∧ s.curenv ≠ some e then
    modify (fun s => s.setEnv e { s.envs e with envStatus := .ENV_DYING })
  else
    envFree e
    let s ← get
    if s.curenv = some e then
      modify (fun s => s.setCurenv none)
      schedYield
    else
      pure ()

/-- Destroy the current environment unless it may access a range. -/
def userMemAssert (d : Decisions) (e : Nat) : Prog State Unit :=
  if d.userMem then pure () else envDestroy e

/-! ### System calls -/

def sysEnvcreate (d : Decisions) : Prog State Word := do
  envCreate d .ENV_TYPE_USER
  pure 1

/-- Change a new environment further, and return its identifier. -/
def initNew (f : Env → Env) (r : Except Word Nat) : Prog State Word :=
  match r with
  | .error r => pure r
  | .ok e => do
      modify (fun s => s.setEnv e (f (s.envs e)))
      let s ← get
      pure (s.envs e).envId

def sysEnvMakeguest (d : Decisions) (entryloc : Word) : Prog State Word := do
  let cur ← curenv
  let s ← get
  let r ← envGuestAlloc d (s.envs cur).envId
  initNew (fun env => { env with
    envStatus := .ENV_NOT_RUNNABLE
    envTf := { env.envTf with tfEip := entryloc } }) r

/-- Run one of seven programs. The last one is run as a guest. -/
def sysEnvreplace (d : Decisions) (x args argc : Word) : Prog State Word := do
  if x.toNat < 6 then
    envReplace d .ENV_TYPE_USER argc args
    pure 1
  else if x.toNat = 6 then
    envReplace d .ENV_TYPE_GUEST argc args
    pure 1
  else
    pure 1

def sysCputs (d : Decisions) : Prog State Word := do
  let cur ← curenv
  userMemAssert d cur
  pure 0

def sysGetenvid : Prog State Word := do
  let cur ← curenv
  let s ← get
  pure (s.envs cur).envId

def sysEnvDestroy (envid : Word) : Prog State Word := do
  match ← envid2env envid true with
  | none => pure (-E_BAD_ENV)
  | some e =>
      envDestroy e
      pure 0

def sysYield : Prog State Word :=
  schedYield

def sysExofork (d : Decisions) : Prog State Word := do
  let cur ← curenv
  let s ← get
  let r ← envAlloc d (s.envs cur).envId
  initNew (fun env => { env with
    envStatus := .ENV_NOT_RUNNABLE
    envTf := { (s.envs cur).envTf with
      tfRegs := { (s.envs cur).envTf.tfRegs with regEax := 0 } } }) r

/-- The statuses an environment may be given by a system call. -/
def statusOf (status : Word) : Option EnvStatus :=
  match status.toNat with
  | 2 => some .ENV_RUNNABLE
  | 4 => some .ENV_NOT_RUNNABLE
  | _ => none

def sysEnvSetStatus (envid status : Word) : Prog State Word := do
  match statusOf status with
  | none => pure (-E_INVAL)
  | some st =>
      match ← envid2env envid true with
      | none => pure (-E_BAD_ENV)
      | some e =>
          modify (fun s => s.setEnv e { s.envs e with envStatus := st })
          pure 0

def sysEnvSetPgfaultUpcall (envid func : Word) : Prog State Word := do
  match ← envid2env envid true with
  | none => pure (-E_BAD_ENV)
  | some e =>
      modify (fun s => s.setEnv e { s.envs e with envPgfaultUpcall := func })
      pure 0

/-- What is returned for the page that is sent with a message, if it can not be sent. -/
def checkSend (d : Decisions) (srcva perm : Word) : Option Word :=
  if srcva.toNat % PGSIZE ≠ 0 then
    some (-E_INVAL)
  else if perm &&& (PTE_U ||| PTE_P) ≠ PTE_U ||| PTE_P then
    some (-E_INVAL)
  else if perm &&& ~~~ PTE_SYSCALL ≠ 0 then
    some (-E_INVAL)
  else
    match d.lookup with
    | none => some (-E_INVAL)
    | some writeable => if perm &&& PTE_W ≠ 0 ∧ writeable = false then some (-E_INVAL) else none

/-- What the receiver `e` is told of the page sent to it, or an error. -/
def sendPage (d : Decisions) (e : Nat) (srcva perm : Word) (s : State) : Except Word Word :=
  if srcva.toNat < UTOP then
    match checkSend d srcva perm with
    | some r => .error r
    | none =>
        if (s.envs e).envIpcDstva.toNat < UTOP then
          if d.inserts then .ok perm else .error (-E_INVAL)
        else
          .ok 0
  else
    .ok 0

def sysIpcTrySend (d : Decisions) (envid value srcva perm : Word) : Prog State Word := do
  match ← envid2env envid false with
  | none => pure (-E_BAD_ENV)
  | some e =>
      let s ← get
      if (s.envs e).envIpcRecving = false then
        pure (-E_IPC_NOT_RECV)
      else
        match sendPage d e srcva perm s with
        | .error r => pure r
        | .ok received =>
            let cur ← curenv
            modify (fun s => s.setEnv e { s.envs e with
              envIpcPerm := received
              envIpcRecving := false
              envIpcValue := value
              envIpcFrom := (s.envs cur).envId
              envStatus := .ENV_RUNNABLE })
            pure 0

/-- Wait for a message. -/
def sysIpcRecv (dstva : Word) : Prog State Word := do
  let cur ← curenv
  if dstva.toNat < UTOP ∧ dstva.toNat % PGSIZE ≠ 0 then
    pure (-E_INVAL)
  else
    modify (fun s => s.setEnv cur { s.envs cur with
      envIpcDstva := if dstva.toNat < UTOP then dstva else BitVec.ofNat 32 KERNBASE
      envIpcRecving := true
      envStatus := .ENV_NOT_RUNNABLE
      envTf := { (s.envs cur).envTf with
        tfRegs := { (s.envs cur).envTf.tfRegs with regEax := 0 } } })
    schedYield

/-- Call the function of a system call. The calls for pages do not change environments. -/
def syscall (d : Decisions) (syscallno a1 a2 a3 a4 : Word) : Prog State Word :=
  match syscallno.toNat with
  | 0 => sysCputs d
  | 1 => pure d.getc
  | 2 => sysGetenvid
  | 3 => sysEnvDestroy a1
  | 4 | 5 | 6 => pure d.pageCall
  | 7 => sysExofork d
  | 8 => sysEnvSetStatus a1 a2
  | 9 => sysEnvSetPgfaultUpcall a1 a2
  | 10 => sysYield
  | 11 => sysIpcTrySend d a1 a2 a3 a4
  | 12 => sysIpcRecv a1
  | 13 => sysEnvcreate d
  | 14 => sysEnvreplace d a1 a2 a3
  | 15 => sysEnvMakeguest d a2
  | _ => pure (-E_NO_SYS)

/-! ### Traps -/

/-- The scratch space and the frame of an upcall. -/
def upcallEsp (esp : Word) : Word :=
  if UXSTACKTOP - PGSIZE ≤ esp.toNat ∧ esp.toNat < UXSTACKTOP - 1 then
    esp - 4 - BitVec.ofNat 32 52
  else
    BitVec.ofNat 32 (UXSTACKTOP - 52)

/-- Deliver a page fault to the upcall of the current environment, or destroy it. -/
def pageFaultHandler (d : Decisions) (tf : Trapframe) : Prog State Unit := do
  if tf.tfCs &&& 3 = 0 then
    Prog.panic "Kernel Page Fault"
  else
    let cur ← curenv
    let s ← get
    if (s.envs cur).envPgfaultUpcall ≠ 0 then
      userMemAssert d cur
      kernStores d
      modify (fun s => s.setEnv cur { s.envs cur with
        envTf := { (s.envs cur).envTf with
          tfEsp := upcallEsp tf.tfEsp
          tfEip := (s.envs cur).envPgfaultUpcall } })
      envRun cur
    else
      envDestroy cur

/-- The kernel monitor. None of its commands makes it return. -/
def monitor : Prog State Unit :=
  Prog.panic "K> "

/-- Set the register a system call returns its result in. `cur` is the environment whose
frame is handled, if it is that of an environment. -/
def setEax (cur : Option Nat) (r : Word) : Prog State Unit :=
  match cur with
  | some cur => modify (fun s => s.setEnv cur { s.envs cur with
      envTf := { (s.envs cur).envTf with
        tfRegs := { (s.envs cur).envTf.tfRegs with regEax := r } } })
  | none => pure ()

/-- Handle the trap with the frame `tf`, which is saved in the environment `cur`. -/
def trapDispatch (d : Decisions) (cur : Option Nat) (tf : Trapframe) : Prog State Unit :=
  match tf.tfTrapno.toNat with
  | 14 => pageFaultHandler d tf
  | 3 => monitor
  | 48 => do
      let r ← syscall d tf.tfRegs.regEax tf.tfRegs.regEdx tf.tfRegs.regEcx tf.tfRegs.regEbx
        tf.tfRegs.regEdi
      setEax cur r
  | 33 => pure ()
  | 39 => pure ()
  | 32 => schedYield
  | _ =>
      if tf.tfCs = GD_KT then
        Prog.panic "unhandled trap in kernel"
      else do
        let cur ← curenv
        envDestroy cur

/-- Go on with the current environment if it is still running, or else with another one. -/
def trapReturn : Prog State Unit := do
  let s ← get
  match s.curenv with
  | some cur => if (s.envs cur).envStatus = .ENV_RUNNING then envRun cur else schedYield
  | none => schedYield

/-- Handle a trap taken in user mode or on a halted processor. -/
def trap (d : Decisions) (tf : Trapframe) : Prog State Unit := do
  modify (fun s => s.setCpu { s.cpus s.cpunum with cpuStatus := .CPU_STARTED })
  if tf.tfCs &&& 3 = 3 then
    let s ← get
    match s.curenv with
    | none => Prog.panic "assertion failed: curenv"
    | some cur =>
        if (s.envs cur).envStatus = .ENV_DYING then
          envFree cur
          modify (fun s => s.setCurenv none)
          schedYield
        else
          modify (fun s => s.setEnv cur { s.envs cur with envTf := tf })
          trapDispatch d (some cur) tf
          trapReturn
  else
    trapDispatch d none tf
    trapReturn

/-! ### Starting -/

/-- What an application processor does when it was started. -/
def mpMain : Prog State Unit :=
  schedYield

/-- Start all processors, make the first environment and run it. -/
def i386Init (d : Decisions) : Prog State Unit := do
  envInit
  modify (fun s => { s with cpus := fun c =>
    if c < s.ncpu then { s.cpus c with cpuStatus := .CPU_STARTED } else s.cpus c })
  envCreate d .ENV_TYPE_USER
  schedYield

end Jos.Smp
