import Jos.Kern.Access
import Jos.Kern.Env

/-!
# System calls

The handlers of `kern/syscall.c` and the function that dispatches to them, with the part
of `cprintf` that `sys_cputs` uses and the console input that `sys_cgetc` reads.
-/

namespace Jos

open Bytes

/-- The numbers of the system calls, in order. -/
inductive Syscall where
  | SYS_cputs
  | SYS_cgetc
  | SYS_getenvid
  | SYS_env_destroy
  | SYS_page_alloc
  | SYS_page_map
  | SYS_page_unmap
  | SYS_exofork
  | SYS_env_set_status
  | SYS_env_set_trapframe
  | SYS_env_set_pgfault_upcall
  | SYS_yield
  | SYS_ipc_try_send
  | SYS_ipc_recv
  | SYS_env_mkguest
  deriving DecidableEq

/-- The system call with a number. -/
def Syscall.ofWord (syscallno : Word) : Option Syscall :=
  match syscallno.toNat with
  | 0 => some SYS_cputs
  | 1 => some SYS_cgetc
  | 2 => some SYS_getenvid
  | 3 => some SYS_env_destroy
  | 4 => some SYS_page_alloc
  | 5 => some SYS_page_map
  | 6 => some SYS_page_unmap
  | 7 => some SYS_exofork
  | 8 => some SYS_env_set_status
  | 9 => some SYS_env_set_trapframe
  | 10 => some SYS_env_set_pgfault_upcall
  | 11 => some SYS_yield
  | 12 => some SYS_ipc_try_send
  | 13 => some SYS_ipc_recv
  | 14 => some SYS_env_mkguest
  | _ => none

/-! ### The console -/

/-- Send a character to the console. -/
def cputchar (ch : Byte) : Prog Kernel Unit :=
  modify (fun s => { s with console := s.console ++ [ch] })

/-- Print the string at `p` as the conversion `%.*s` does: up to a null character, and at
most `precision` characters if `precision` is not negative. Each character is read before
the precision is compared. At most `fuel` characters are looked at. -/
def putString : Nat → Word → Int → Prog Kernel Unit
  | 0, _, _ => pure ()
  | fuel + 1, p, precision => do
      let ch ← kernLoad p
      if ch = 0 then
        pure ()
      else if precision < 0 then
        cputchar ch
        putString fuel (p + 1) precision
      else if precision - 1 ≥ 0 then
        cputchar ch
        putString fuel (p + 1) (precision - 1)
      else
        pure ()

/-- Print the characters of the string that a null pointer stands for. -/
def putNull (precision : Int) : Prog Kernel Unit :=
  let null : List Byte := [0x28, 0x6e, 0x75, 0x6c, 0x6c, 0x29]
  let n := if precision < 0 then null.length else precision.toNat
  modify (fun s => { s with console := s.console ++ null.take n })

/-- `cprintf("%.*s", len, s)`. No string goes on for more than all of the address space. -/
def cprintfString (len s : Word) : Prog Kernel Unit :=
  if s = 0 then putNull len.toInt else putString (2 ^ 32) s len.toInt

namespace Cons

/-- Put a character received from a device into the buffer. -/
def put (cons : Cons) (c : Byte) : Cons :=
  if c = 0 then
    cons
  else
    { cons with
      buf := Function.update cons.buf cons.wpos c
      wpos := if cons.wpos + 1 = CONSBUFSIZE then 0 else cons.wpos + 1 }

end Cons

/-- Move what the serial port has received into the buffer. -/
def serialIntr : Prog Kernel Unit :=
  modify (fun s => { s with cons := s.serial.foldl Cons.put s.cons, serial := [] })

/-- Move what the keyboard has received into the buffer. -/
def kbdIntr : Prog Kernel Unit :=
  modify (fun s => { s with cons := s.keyboard.foldl Cons.put s.cons, keyboard := [] })

/-- The next input character from the console, or `0`. -/
def consGetc : Prog Kernel Word := do
  serialIntr
  kbdIntr
  let s ← get
  if s.cons.rpos ≠ s.cons.wpos then
    let c := s.cons.buf s.cons.rpos
    let rpos := if s.cons.rpos + 1 = CONSBUFSIZE then 0 else s.cons.rpos + 1
    set { s with cons := { s.cons with rpos := rpos } }
    pure (c.setWidth 32)
  else
    pure 0

/-! ### Handlers -/

/-- Print a string to the console. -/
def sysCputs (s len : Word) : Prog Kernel Unit := do
  let cur ← curenv
  userMemAssert cur s len (PTE_P ||| PTE_U)
  cprintfString len s

/-- Read a character from the console without blocking. -/
def sysCgetc : Prog Kernel Word :=
  consGetc

/-- The identifier of the current environment. -/
def sysGetenvid : Prog Kernel Word := do
  let cur ← curenv
  let s ← get
  pure (s.envs cur).envId

/-- Destroy an environment. -/
def sysEnvDestroy (envid : Word) : Prog Kernel Word := do
  match ← envid2env envid true with
  | none => pure (-E_BAD_ENV)
  | some e =>
      envDestroy e
      pure 0

/-- Give up the processor. -/
def sysYield : Prog Kernel Unit :=
  schedYield

/-- Create an environment with the registers of the current one. -/
def sysExofork : Prog Kernel Word := do
  let cur ← curenv
  let s ← get
  match ← envAlloc (s.envs cur).envId with
  | .error r => pure r
  | .ok e =>
      let s ← get
      let tf := (s.envs cur).envTf
      set (s.setEnv e { s.envs e with
        envTf := { tf with tfRegs := { tf.tfRegs with regEax := 0 } }
        envStatus := .ENV_NOT_RUNNABLE })
      pure (s.envs e).envId

/-- The value of `ENV_RUNNABLE` and of `ENV_NOT_RUNNABLE`. -/
def statusOfWord (status : Word) : Option EnvStatus :=
  if status = 2 then some .ENV_RUNNABLE
  else if status = 4 then some .ENV_NOT_RUNNABLE
  else none

/-- Set the status of an environment. -/
def sysEnvSetStatus (envid status : Word) : Prog Kernel Word := do
  match statusOfWord status with
  | none => pure (-E_INVAL)
  | some st =>
      match ← envid2env envid true with
      | none => pure (-E_BAD_ENV)
      | some e =>
          modify (fun s => s.setEnv e { s.envs e with envStatus := st })
          pure 0

/-- The trap frame made of 17 words. -/
def Trapframe.ofWords (w : Nat → Word) : Trapframe :=
  { tfRegs :=
      { regEdi := w 0
        regEsi := w 1
        regEbp := w 2
        regOesp := w 3
        regEbx := w 4
        regEdx := w 5
        regEcx := w 6
        regEax := w 7 }
    tfEs := (w 8).setWidth 16
    tfPadding1 := (w 8 >>> 16).setWidth 16
    tfDs := (w 9).setWidth 16
    tfPadding2 := (w 9 >>> 16).setWidth 16
    tfTrapno := w 10
    tfErr := w 11
    tfEip := w 12
    tfCs := (w 13).setWidth 16
    tfPadding3 := (w 13 >>> 16).setWidth 16
    tfEflags := w 14
    tfEsp := w 15
    tfSs := (w 16).setWidth 16
    tfPadding4 := (w 16 >>> 16).setWidth 16 }

/-- Read `n` words from `va` on from the kernel. -/
def kernLoadWords (va : Word) : Nat → Prog Kernel (List Word)
  | 0 => pure []
  | n + 1 => do
      let w ← kernLoad32 va
      let ws ← kernLoadWords (va + 4) n
      pure (w :: ws)

/-- The trap frame that lies in user memory at `va`. -/
def Kernel.frameAt (s : Kernel) (va : Word) : Trapframe :=
  .ofWords (fun i => (s.wordsAt va 17).getD i 0)

/-- Set the trap frame of an environment to the one at `tf`. -/
def sysEnvSetTrapframe (envid tf : Word) : Prog Kernel Word := do
  match ← envid2env envid true with
  | none => pure (-E_BAD_ENV)
  | some e =>
      let eip ← kernLoad32 (tf + 48)
      if eip.toNat ≥ UTOP then
        pure (-1)
      else
        let ws ← kernLoadWords tf 17
        let frame := Trapframe.ofWords (fun i => ws.getD i 0)
        modify (fun s => s.setEnv e { s.envs e with
          envTf := { frame with tfEflags := frame.tfEflags ||| FL_IF } })
        pure 0

/-- Set the page fault upcall of an environment. -/
def sysEnvSetPgfaultUpcall (envid func : Word) : Prog Kernel Word := do
  match ← envid2env envid true with
  | none => pure (-E_BAD_ENV)
  | some e =>
      if func = 0 then
        pure (-E_INVAL)
      else
        modify (fun s => s.setEnv e { s.envs e with envPgfaultUpcall := func })
        pure 0

/-- Whether an address lies below `UTOP` on a page boundary. -/
def UserPageAddr (va : Word) : Prop :=
  va.toNat < UTOP ∧ va.toNat % PGSIZE = 0

instance (va : Word) : Decidable (UserPageAddr va) :=
  inferInstanceAs (Decidable (_ ∧ _))

/-- Whether permissions may be asked for in a system call. -/
def ProperPerm (perm : Word) : Prop :=
  perm &&& PTE_U ≠ 0 ∧ perm &&& PTE_P ≠ 0 ∧ perm &&& ~~~ PTE_SYSCALL = 0

instance (perm : Word) : Decidable (ProperPerm perm) :=
  inferInstanceAs (Decidable (_ ∧ _))

/-- What may be asked for: permissions in a message are none of the bits of an address. -/
def Modest (sys : Syscall) (a3 a4 : Word) : Prop :=
  sys = .SYS_ipc_try_send → a3.toNat < UTOP → a4.toNat < 4096

/-- The directory of the environment `e`. -/
def envPgdirOf (e : Nat) : Prog Kernel Nat := do
  let s ← get
  Prog.orElse (s.envs e).envPgdir (Prog.fault 0)

/-- Allocate a page and map it at `va`. -/
def sysPageAlloc (envid va perm : Word) : Prog Kernel Word := do
  if ¬ UserPageAddr va then
    pure (-E_INVAL)
  else if ¬ ProperPerm perm then
    pure (-E_INVAL)
  else
    match ← envid2env envid true with
    | none => pure (-E_BAD_ENV)
    | some e =>
        match ← pageAlloc with
        | none => pure (-E_NO_MEM)
        | some page =>
            let pgdir ← envPgdirOf e
            let r ← pageInsert pgdir page va perm
            if r ≠ 0 then
              pageFree page
              pure (-E_NO_MEM)
            else
              pure 0

/-- Map the page at `srcva` in one environment at `dstva` in another one. -/
def sysPageMap (srcenvid srcva dstenvid dstva perm : Word) : Prog Kernel Word := do
  match ← envid2env srcenvid true with
  | none => pure (-E_BAD_ENV)
  | some se =>
      match ← envid2env dstenvid true with
      | none => pure (-E_BAD_ENV)
      | some de =>
          if ¬ UserPageAddr srcva ∨ ¬ UserPageAddr dstva then
            pure (-E_INVAL)
          else if ¬ ProperPerm perm then
            pure (-E_INVAL)
          else
            let sepgdir ← envPgdirOf se
            match ← pageLookup sepgdir srcva with
            | none => pure (-E_INVAL)
            | some (page, septe) =>
                let s ← get
                if perm &&& PTE_W ≠ 0 ∧ s.entry septe.1 septe.2 &&& PTE_W = 0 then
                  pure (-E_INVAL)
                else
                  let depgdir ← envPgdirOf de
                  let r ← pageInsert depgdir page dstva perm
                  if r ≠ 0 then
                    pure (-E_NO_MEM)
                  else
                    pure 0

/-- Unmap the page at `va`. -/
def sysPageUnmap (envid va : Word) : Prog Kernel Word := do
  if ¬ UserPageAddr va then
    pure (-E_INVAL)
  else
    match ← envid2env envid true with
    | none => pure (-E_BAD_ENV)
    | some e =>
        let pgdir ← envPgdirOf e
        pageRemove pgdir va
        pure 0

/-- Record that a message was received by the environment `e`. -/
def ipcReceive (e : Nat) (value perm : Word) : Prog Kernel Word := do
  let cur ← curenv
  modify (fun s => s.setEnv e { s.envs e with
    envIpcRecving := false
    envIpcDstva := BitVec.ofNat 32 UTOP
    envIpcFrom := (s.envs cur).envId
    envIpcValue := value
    envIpcPerm := perm
    envStatus := .ENV_RUNNABLE })
  pure 0

/-- Send a value and the page that was looked up to the environment `e`. -/
def ipcSendPage (e : Nat) (value perm : Word) : Option (Nat × (Nat × Nat)) → Prog Kernel Word
  | none => pure (-E_INVAL)
  | some (page, pte) => do
      let s ← get
      if perm &&& PTE_W ≠ 0 ∧ s.entry pte.1 pte.2 &&& PTE_W = 0 then
        pure (-E_INVAL)
      else
        let pgdir ← envPgdirOf e
        let r ← pageInsert pgdir page (s.envs e).envIpcDstva perm
        if isError r then
          pure (-E_NO_MEM)
        else
          ipcReceive e value perm

/-- Try to send a value, and the page at `srcva` if `srcva` is below `UTOP`. -/
def sysIpcTrySend (envid value srcva perm : Word) : Prog Kernel Word := do
  match ← envid2env envid false with
  | none => pure (-E_BAD_ENV)
  | some e =>
      let s ← get
      if (s.envs e).envIpcRecving = false then
        pure (-E_IPC_NOT_RECV)
      else if (s.envs e).envIpcDstva.toNat < UTOP ∧ srcva.toNat < UTOP then
        let pgdir ← curPgdir
        let r ← pageLookup pgdir srcva
        ipcSendPage e value perm r
      else
        ipcReceive e value perm

/-- Wait for a message. -/
def sysIpcRecv (dstva : Word) : Prog Kernel Word := do
  if dstva.toNat < UTOP ∧ dstva.toNat % PGSIZE ≠ 0 then
    pure (-E_INVAL)
  else
    let cur ← curenv
    modify (fun s => s.setEnv cur { s.envs cur with
      envIpcDstva := dstva
      envIpcRecving := true
      envIpcValue := 0
      envIpcFrom := 0
      envIpcPerm := 0
      envStatus := .ENV_NOT_RUNNABLE })
    pure 0

/-- Create a guest environment that starts at `eip`. The size is not used. -/
def sysEnvMkguest (_size eip : Word) : Prog Kernel Word := do
  let cur ← curenv
  let s ← get
  match ← envGuestAlloc (s.envs cur).envId with
  | .error r => pure r
  | .ok e =>
      let s ← get
      set (s.setEnv e { s.envs e with
        envStatus := .ENV_NOT_RUNNABLE
        envTf := { (s.envs e).envTf with tfEip := eip } })
      pure (s.envs e).envId

/-! ### Dispatch -/

/-- The handler of a system call and the value it returns, `0` if it returns none. -/
def Syscall.handler (a1 a2 a3 a4 a5 : Word) : Syscall → Prog Kernel Word
  | SYS_yield => do sysYield; pure 0
  | SYS_cputs => do sysCputs a1 a2; pure 0
  | SYS_cgetc => sysCgetc
  | SYS_getenvid => sysGetenvid
  | SYS_env_destroy => sysEnvDestroy a1
  | SYS_exofork => sysExofork
  | SYS_env_set_status => sysEnvSetStatus a1 a2
  | SYS_page_alloc => sysPageAlloc a1 a2 a3
  | SYS_page_map => sysPageMap a1 a2 a3 a4 a5
  | SYS_page_unmap => sysPageUnmap a1 a2
  | SYS_env_set_pgfault_upcall => sysEnvSetPgfaultUpcall a1 a2
  | SYS_ipc_try_send => sysIpcTrySend a1 a2 a3 a4
  | SYS_ipc_recv => sysIpcRecv a1
  | SYS_env_set_trapframe => sysEnvSetTrapframe a1 a2
  | SYS_env_mkguest => sysEnvMkguest a1 a2

/-- Dispatch to the handler of a system call. -/
def syscall (syscallno a1 a2 a3 a4 a5 : Word) : Prog Kernel Word :=
  match Syscall.ofWord syscallno with
  | some .SYS_env_destroy => do
      let _ ← sysEnvDestroy a1
      pure 0
  | some sys => sys.handler a1 a2 a3 a4 a5
  | none => Prog.panic "syscall not implemented"

end Jos
