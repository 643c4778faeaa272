import Jos.Kern.Trap
import Jos.Root.Syscall

/-!
# Traps of the kernel in `kern/`

What the kernel at the root of the repository does with a trap taken in user mode: `trap`,
`trap_dispatch` and `page_fault_handler` of its `kern/trap.c`.  Printing has no effect on the state
modelled here and is left out.

The directory in force when the trap is taken is a parameter: it is the one of the environment
that was running, unless that environment has created another one, whose directory `load_icode`
leaves in force.
-/

namespace Jos

namespace Root

open Bytes

/-! ### Page faults -/

/-- Write words from `va` on while the directory `pgdir` is in force. -/
def kernStoreWords (pgdir : Nat) (va : Word) : List Word → Prog Kernel Unit
  | [] => pure ()
  | w :: ws => do
      kernStore32 pgdir va w
      kernStoreWords pgdir (va + 4) ws

/-- Where the frame for a page fault is pushed: below a scratch word below the stack pointer if it
is on the exception stack, and at the top of the exception stack otherwise. -/
def utfVa (esp : Word) : Word :=
  if esp.toNat ≥ UXSTACKTOP - PGSIZE ∧ esp.toNat < UXSTACKTOP - 1 then
    esp - 4 - BitVec.ofNat 32 UTrapframe.size
  else
    BitVec.ofNat 32 UXSTACKTOP - BitVec.ofNat 32 UTrapframe.size

/-- Handle a page fault of the current environment at `faultVa`: call its upcall, or destroy
it. -/
def pageFaultHandler (dir : Nat) (faultVa : Word) : Prog Kernel Unit := do
  let cur ← curenv
  let s ← get
  let tf := (s.envs cur).envTf
  if tf.tfCs &&& 3 = 0 then
    Prog.panic "Kernel Page Fault"
  else if (s.envs cur).envPgfaultUpcall ≠ 0 then
    let utf := utfVa tf.tfEsp
    userMemAssert cur utf (BitVec.ofNat 32 UTrapframe.size) PTE_W
    kernStoreWords dir utf (UTrapframe.ofTrap faultVa tf).words
    modify (fun s => s.setEnv cur { s.envs cur with
      envTf := { (s.envs cur).envTf with
        tfEsp := utf
        tfEip := (s.envs cur).envPgfaultUpcall } })
    envRun cur
  else
    envDestroy cur

/-! ### Dispatch -/

/-- Handle the trap whose frame is saved in the environment `cur`. -/
def trapDispatch (binary : Program → Binary) (dir : Nat) (faultVa : Word) (cur : Nat) :
    Prog Host Unit := do
  let g ← get
  let tf := (g.kernel.envs cur).envTf
  if tf.tfTrapno = T_PGFLT then
    onKernel (pageFaultHandler dir faultVa)
  else if tf.tfTrapno = T_BRKPT then
    onKernel monitor
  else if tf.tfTrapno = T_SYSCALL then
    let r ← syscall binary tf.tfRegs.regEax tf.tfRegs.regEdx tf.tfRegs.regEcx tf.tfRegs.regEbx
      tf.tfRegs.regEdi tf.tfRegs.regEsi
    onKernel (modify (fun s => s.setEnv cur { s.envs cur with
      envTf := { (s.envs cur).envTf with
        tfRegs := { (s.envs cur).envTf.tfRegs with regEax := r } } }))
  else if tf.tfTrapno = 33 then
    onKernel kbdIntr
  else if tf.tfTrapno = IRQ_OFFSET + IRQ_SPURIOUS then
    pure ()
  else if tf.tfTrapno = IRQ_OFFSET + IRQ_TIMER then
    onKernel (do lapicEoi; schedYield)
  else if tf.tfCs = GD_KT then
    Prog.panic "unhandled trap in kernel"
  else
    onKernel (envDestroy cur)

/-- Go on with the current environment if it is running, and with another one otherwise. -/
def afterTrap : Prog Kernel Unit := do
  let s ← get
  match s.curenv with
  | some e =>
      if (s.envs e).envStatus = .ENV_RUNNING then
        envRun e
      else
        schedYield
  | none => schedYield

/-- Free the current environment, and go on with another one. -/
def freeDying (cur : Nat) : Prog Kernel Unit := do
  envFree cur
  modify (fun s => { s with curenv := none })
  schedYield

/-- Handle a trap taken in user mode with the frame `tf`, and go on with some environment. -/
def trap (binary : Program → Binary) (dir : Nat) (faultVa : Word) (tf : Trapframe) :
    Prog Host Unit := do
  let g ← get
  match g.kernel.curenv with
  | none => Prog.panic "assertion failed: curenv"
  | some cur =>
      if (g.kernel.envs cur).envStatus = .ENV_DYING then
        onKernel (freeDying cur)
      else
        onKernel (setTf cur tf)
        trapDispatch binary dir faultVa cur
        onKernel afterTrap

end Root

end Jos
