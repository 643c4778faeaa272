import Jos.Kern.Syscall

/-!
# Traps

What the kernel does with a trap taken in user mode: `trap`, `trap_dispatch` and
`page_fault_handler` of `kern/trap.c`.  Printing has no effect on the state modelled here
and is left out.
-/

namespace Jos

open Bytes

/-! ### Trap numbers -/

def T_DEBUG : Word := 1
def T_BRKPT : Word := 3
def T_GPFLT : Word := 13
def T_PGFLT : Word := 14
def T_SYSCALL : Word := 48
def IRQ_OFFSET : Word := 32
def IRQ_TIMER : Word := 0
def IRQ_SPURIOUS : Word := 7

/-! ### Page faults -/

/-- The registers as they lie in memory. -/
def PushRegs.words (regs : PushRegs) : List Word :=
  [regs.regEdi, regs.regEsi, regs.regEbp, regs.regOesp, regs.regEbx, regs.regEdx, regs.regEcx,
    regs.regEax]

/-- What the page fault upcall of an environment gets on the exception stack. -/
structure UTrapframe where
  utfFaultVa : Word
  utfErr : Word
  utfRegs : PushRegs
  utfEip : Word
  utfEflags : Word
  utfEsp : Word
  deriving DecidableEq

/-- The size of a `struct UTrapframe`. -/
def UTrapframe.size : Nat := 52

/-- The frame as it lies in memory. -/
def UTrapframe.words (utf : UTrapframe) : List Word :=
  [utf.utfFaultVa, utf.utfErr] ++ utf.utfRegs.words ++ [utf.utfEip, utf.utfEflags, utf.utfEsp]

/-- The frame for a page fault at `faultVa`. -/
def UTrapframe.ofTrap (faultVa : Word) (tf : Trapframe) : UTrapframe :=
  { utfFaultVa := faultVa
    utfErr := tf.tfErr
    utfRegs := tf.tfRegs
    utfEip := tf.tfEip
    utfEflags := tf.tfEflags
    utfEsp := tf.tfEsp }

/-- Write words from `va` on from the kernel. -/
def kernStoreWords (va : Word) : List Word → Prog Kernel Unit
  | [] => pure ()
  | w :: ws => do
      kernStore32 va w
      kernStoreWords (va + 4) ws

/-- The address the frame is pushed below: a scratch word below the stack pointer if the
fault was taken on the exception stack, and the top of the exception stack otherwise. -/
def faultStack (esp : Word) : Word :=
  if esp.toNat ≥ UXSTACKTOP - PGSIZE ∧ esp.toNat ≤ UXSTACKTOP - 1 then
    esp - 4
  else
    BitVec.ofNat 32 UXSTACKTOP

/-- Handle a page fault of the current environment at `faultVa`: call its upcall, or
destroy it. -/
def pageFaultHandler (faultVa : Word) : Prog Kernel Unit := do
  let cur ← curenv
  let s ← get
  let tf := (s.envs cur).envTf
  let upcall := (s.envs cur).envPgfaultUpcall
  if tf.tfCs &&& 3 ≠ 3 then
    Prog.panic "Page fault occured in kernel mode\n"
  else if upcall ≠ 0
      ∧ (tf.tfEsp.toNat ≥ UXSTACKTOP - PGSIZE ∨ tf.tfEsp.toNat < USTACKTOP) then
    let userTf := faultStack tf.tfEsp - BitVec.ofNat 32 UTrapframe.size
    if userTf.toNat < UXSTACKTOP - PGSIZE then
      envDestroy cur
    else
      userMemAssert cur userTf 1 PTE_W
      kernStoreWords userTf (UTrapframe.ofTrap faultVa tf).words
      modify (fun s => s.setEnv cur { s.envs cur with
        envTf := { (s.envs cur).envTf with tfEsp := userTf, tfEip := upcall } })
      envRun cur
  else
    envDestroy cur

/-! ### Guests -/

/-- Set the saved registers of the environment `e`. -/
def setTf (e : Nat) (tf : Trapframe) : Prog Kernel Unit :=
  modify (fun s => s.setEnv e { s.envs e with envTf := tf })

/-- What a guest puts out with an instruction at `eip`: only printable characters, and
only for odd addresses. -/
def emulateOut (val eip : Word) : Prog Kernel Unit :=
  if ((32 ≤ val.toInt ∧ val.toInt < 128) ∨ val = 10) ∧ eip.toNat % 2 = 1 then
    cputchar (val.setWidth 8)
  else
    pure ()

/-- Carry out the instruction a guest has trapped at, if it is one that the kernel knows.
`inb` is what the ports hold. -/
def emulate (inb : Word → Byte) (cur : Nat) : Prog Kernel Bool := do
  let s ← get
  let tf := (s.envs cur).envTf
  let op ← kernLoad tf.tfEip
  if op = 0xfa then
    setTf cur { tf with tfEip := 0x00100000 }
    pure true
  else if op = 0xec then
    setTf cur { tf with
      tfRegs := { tf.tfRegs with regEax := (inb tf.tfRegs.regEdx).setWidth 32 }
      tfEip := tf.tfEip + 1 }
    pure true
  else if op = 0xee then
    emulateOut tf.tfRegs.regEax tf.tfEip
    setTf cur { tf with tfEip := tf.tfEip + 1 }
    pure true
  else
    let b ← kernLoad (tf.tfEip + 1)
    if b ++ op = (0xd08e : BitVec 16) then
      setTf cur { tf with tfEip := tf.tfEip + 2 }
      pure true
    else
      let w ← kernLoad32 tf.tfEip
      if w = 0x0dc0200f then
        setTf cur { tf with tfEip := 0x00100028 }
        pure true
      else
        pure false

/-! ### Dispatch -/

/-- The kernel monitor. None of its commands makes it return. -/
def monitor : Prog Kernel Unit :=
  Prog.panic "K> "

/-- Acknowledge an interrupt. -/
def lapicEoi : Prog Kernel Unit :=
  modify (fun s => { s with eois := s.eois + 1 })

/-- What is left to do with a trap that is no exception and no system call. -/
def dispatchInterrupt (cur : Nat) : Prog Kernel Unit := do
  let s ← get
  let tf := (s.envs cur).envTf
  if tf.tfTrapno = IRQ_OFFSET + IRQ_SPURIOUS then
    pure ()
  else if tf.tfTrapno = 33 then
    kbdIntr
  else if tf.tfTrapno = IRQ_OFFSET + IRQ_TIMER then
    lapicEoi
    schedYield
  else if (s.envs cur).envType = .ENV_TYPE_GUEST then
    envDestroy cur
  else if tf.tfCs = GD_KT then
    Prog.panic "unhandled trap in kernel"
  else
    envDestroy cur

/-- Dispatch by the number of the trap. -/
def dispatchTrapno (faultVa : Word) (cur : Nat) : Prog Kernel Unit := do
  let s ← get
  let tf := (s.envs cur).envTf
  if tf.tfTrapno = T_DEBUG then
    setTf cur { tf with tfEflags := tf.tfEflags ||| -FL_TF }
    dispatchInterrupt cur
  else if tf.tfTrapno = T_PGFLT then
    pageFaultHandler faultVa
    dispatchInterrupt cur
  else if tf.tfTrapno = T_BRKPT then
    monitor
    dispatchInterrupt cur
  else if tf.tfTrapno = T_SYSCALL then
    let r ← syscall tf.tfRegs.regEax tf.tfRegs.regEdx tf.tfRegs.regEcx tf.tfRegs.regEbx
      tf.tfRegs.regEdi tf.tfRegs.regEsi
    let s ← get
    setTf cur { (s.envs cur).envTf with
      tfRegs := { (s.envs cur).envTf.tfRegs with regEax := r } }
  else
    dispatchInterrupt cur

/-- Handle the trap whose frame is saved in the current environment. -/
def trapDispatch (inb : Word → Byte) (faultVa : Word) (cur : Nat) : Prog Kernel Unit := do
  let s ← get
  if (s.envs cur).envType = .ENV_TYPE_GUEST then
    let done ← emulate inb cur
    if done then
      pure ()
    else
      dispatchTrapno faultVa cur
  else
    dispatchTrapno faultVa cur

/-- Handle a trap taken in user mode with the frame `tf`, and go on with some
environment. -/
def trap (inb : Word → Byte) (faultVa : Word) (tf : Trapframe) : Prog Kernel Unit := do
  let s ← get
  match s.curenv with
  | none => Prog.panic "assertion failed: curenv"
  | some cur =>
      if (s.envs cur).envStatus = .ENV_DYING then
        envFree cur
        modify (fun s => { s with curenv := none })
        schedYield
      else
        setTf cur tf
        trapDispatch inb faultVa cur
        let s ← get
        match s.curenv with
        | some e =>
            if (s.envs e).envStatus = .ENV_RUNNING then
              envRun e
            else
              schedYield
        | none => schedYield

end Jos
