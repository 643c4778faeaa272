import Jos.Kern.Syscall
import Jos.Root.Env

/-!
# System calls of the kernel in `kern/`

The handlers of `kern/syscall.c` of the kernel at the root of the repository.  The images that
`sys_envreplace` and `sys_envcreate` load are linked into the kernel when it is built, and are a
parameter here.
-/

namespace Jos

namespace Root

open Bytes

def E_NO_SYS : Word := 7
def E_IPC_NOT_RECV : Word := 8

/-- The system calls. -/
inductive Syscall where
  | SYS_cputs
  | SYS_cgetc
  | SYS_getenvid
  | SYS_env_destroy
  | SYS_page_alloc
  | SYS_page_map
  | SYS_page_unmap
  | SYS_exofork
  | SYS_env_set_status
  | SYS_env_set_pgfault_upcall
  | SYS_yield
  | SYS_ipc_try_send
  | SYS_ipc_recv
  | SYS_envcreate
  | SYS_envreplace
  | SYS_envmakeguest
  deriving DecidableEq

/-- The system call with a number. -/
def Syscall.ofWord (syscallno : Word) : Option Syscall :=
  match syscallno.toNat with
  | 0 => some SYS_cputs
  | 1 => some SYS_cgetc
  | 2 => some SYS_getenvid
  | 3 => some SYS_env_destroy
  | 4 => some SYS_page_alloc
  | 5 => some SYS_page_map
  | 6 => some SYS_page_unmap
  | 7 => some SYS_exofork
  | 8 => some SYS_env_set_status
  | 9 => some SYS_env_set_pgfault_upcall
  | 10 => some SYS_yield
  | 11 => some SYS_ipc_try_send
  | 12 => some SYS_ipc_recv
  | 13 => some SYS_envcreate
  | 14 => some SYS_envreplace
  | 15 => some SYS_envmakeguest
  | _ => none

/-- The programs linked into the kernel that system calls load. -/
inductive Program where
  | user_hello
  | user_factorial
  | user_fibonacci
  | user_date
  | user_cal
  | user_echo
  | user_vm
  deriving DecidableEq

/-- The program with a number, and the type of environment that runs it. -/
def Program.ofInt (x : Word) : Option (Program × EnvType) :=
  match x.toNat with
  | 0 => some (user_hello, .ENV_TYPE_USER)
  | 1 => some (user_factorial, .ENV_TYPE_USER)
  | 2 => some (user_fibonacci, .ENV_TYPE_USER)
  | 3 => some (user_date, .ENV_TYPE_USER)
  | 4 => some (user_cal, .ENV_TYPE_USER)
  | 5 => some (user_echo, .ENV_TYPE_USER)
  | 6 => some (user_vm, .ENV_TYPE_GUEST)
  | _ => none

/-! ### Handlers -/

/-- Create an environment that runs the program `hello`. -/
def sysEnvcreate (binary : Program → Binary) : Prog Kernel Word := do
  envCreate (binary .user_hello) .ENV_TYPE_USER
  pure 1

/-- Replace the program of the current environment. -/
def sysEnvreplace (binary : Program → Binary) (x args argc : Word) : Prog Kernel Word := do
  match Program.ofInt x with
  | some (program, type) => envReplace (binary program) type argc args
  | none => pure ()
  pure 1

/-- Create a guest environment that starts at `entryloc`. -/
def sysEnvMakeguest (physicalsz entryloc : Word) : Prog Host Word := do
  let cur ← onKernel curenv
  let g ← get
  match ← envGuestAlloc (g.kernel.envs cur).envId with
  | .error r => pure r
  | .ok e =>
      onKernel (modify (fun s => s.setEnv e { s.envs e with envStatus := .ENV_NOT_RUNNABLE }))
      modify (fun g => g.setInfo e { g.extrainfo e with physicalsz := physicalsz })
      onKernel (modify (fun s => s.setEnv e { s.envs e with
        envTf := { (s.envs e).envTf with tfEip := entryloc } }))
      let g ← get
      pure (g.kernel.envs e).envId

/-- Print a string to the console. -/
def sysCputs (s len : Word) : Prog Kernel Unit := do
  let cur ← curenv
  userMemAssert cur s len PTE_U
  cprintfString len s

/-- Read a character from the console without blocking. -/
def sysCgetc : Prog Kernel Word :=
  consGetc

/-- The identifier of the current environment. -/
def sysGetenvid : Prog Kernel Word := do
  let cur ← curenv
  let s ← get
  pure (s.envs cur).envId

/-- Destroy an environment. -/
def sysEnvDestroy (envid : Word) : Prog Kernel Word := do
  match ← envid2env envid true with
  | none => pure (-E_BAD_ENV)
  | some e =>
      envDestroy e
      pure 0

/-- Give up the processor. -/
def sysYield : Prog Kernel Unit :=
  schedYield

/-- Create an environment with the registers of the current one. -/
def sysExofork : Prog Kernel Word := do
  let cur ← curenv
  let s ← get
  match ← envAlloc (s.envs cur).envId with
  | .error x => pure x
  | .ok e =>
      modify (fun s => s.setEnv e { s.envs e with envStatus := .ENV_NOT_RUNNABLE })
      modify (fun s =>
        let tf := (s.envs cur).envTf
        s.setEnv e { s.envs e with
          envTf := { tf with tfRegs := { tf.tfRegs with regEax := 0 } } })
      let s ← get
      pure (s.envs e).envId

/-- Set the status of an environment. -/
def sysEnvSetStatus (envid status : Word) : Prog Kernel Word := do
  match statusOfWord status with
  | some st =>
      match ← envid2env envid true with
      | none => pure (-E_BAD_ENV)
      | some e =>
          modify (fun s => s.setEnv e { s.envs e with envStatus := st })
          pure 0
  | none => pure (-E_INVAL)

/-- Set the page fault upcall of an environment. -/
def sysEnvSetPgfaultUpcall (envid func : Word) : Prog Kernel Word := do
  match ← envid2env envid true with
  | none => pure (-E_BAD_ENV)
  | some e =>
      modify (fun s => s.setEnv e { s.envs e with envPgfaultUpcall := func })
      pure 0

/-- Allocate a page and map it at `va`. -/
def sysPageAlloc (envid va perm : Word) : Prog Kernel Word := do
  if perm &&& (PTE_U ||| PTE_P) = PTE_U ||| PTE_P then
    if perm &&& ~~~ PTE_SYSCALL = 0 then
      if va.toNat ≥ UTOP ∨ va.toNat % PGSIZE ≠ 0 then
        pure (-E_INVAL)
      else
        match ← envid2env envid true with
        | none => pure (-E_BAD_ENV)
        | some env =>
            match ← pageAlloc ALLOC_ZERO with
            | none => pure (-E_NO_MEM)
            | some temp =>
                let pgdir ← envPgdirOf env
                let x ← pageInsert pgdir temp va perm
                if x ≠ 0 then
                  pageFree temp
                  pure (-E_NO_MEM)
                else
                  pure 0
    else
      pure (-E_INVAL)
  else
    pure (-E_INVAL)

/-- Map the page at `srcva` in one environment at `dstva` in another one. -/
def sysPageMap (srcenvid srcva dstenvid dstva perm : Word) : Prog Kernel Word := do
  match ← envid2env srcenvid true with
  | none => pure (-E_BAD_ENV)
  | some srcenv =>
      match ← envid2env dstenvid true with
      | none => pure (-E_BAD_ENV)
      | some destenv =>
          if srcva.toNat ≥ UTOP ∨ srcva.toNat % PGSIZE ≠ 0 then
            pure (-E_INVAL)
          else if dstva.toNat ≥ UTOP ∨ dstva.toNat % PGSIZE ≠ 0 then
            pure (-E_INVAL)
          else if perm &&& (PTE_U ||| PTE_P) ≠ PTE_U ||| PTE_P then
            pure (-E_INVAL)
          else if perm &&& ~~~ PTE_SYSCALL = 0 then
            let srcpgdir ← envPgdirOf srcenv
            match ← pageLookup srcpgdir srcva with
            | none => pure (-E_INVAL)
            | some (p1, temp1) =>
                let s ← get
                if perm &&& PTE_W = PTE_W ∧ s.entry temp1.1 temp1.2 &&& PTE_W = 0 then
                  pure (-E_INVAL)
                else
                  let destpgdir ← envPgdirOf destenv
                  let x ← pageInsert destpgdir p1 dstva perm
                  if x ≠ 0 then
                    pure (-E_NO_MEM)
                  else
                    pure 0
          else
            pure (-E_INVAL)

/-- Unmap the page at `va`. -/
def sysPageUnmap (envid va : Word) : Prog Kernel Word := do
  match ← envid2env envid true with
  | none => pure (-E_BAD_ENV)
  | some temp =>
      if va.toNat ≥ UTOP ∨ va.toNat % PGSIZE ≠ 0 then
        pure (-E_INVAL)
      else
        let pgdir ← envPgdirOf temp
        pageRemove pgdir va
        pure 0

/-- Record that a message was received by the environment `tgt`. -/
def ipcReceived (tgt : Nat) (value : Word) : Prog Kernel Word := do
  let cur ← curenv
  modify (fun s => s.setEnv tgt { s.envs tgt with
    envIpcRecving := false
    envIpcValue := value
    envIpcFrom := (s.envs cur).envId
    envStatus := .ENV_RUNNABLE })
  pure 0

/-- Record the permissions that the environment `tgt` has got. -/
def setIpcPerm (tgt : Nat) (perm : Word) : Prog Kernel Unit :=
  modify (fun s => s.setEnv tgt { s.envs tgt with envIpcPerm := perm })

/-- Map the page `temppg` in the environment `tgt` if it asks for one, and send the value. -/
def ipcSendPage (tgt : Nat) (value perm : Word) (temppg : Nat) : Prog Kernel Word := do
  let s ← get
  if (s.envs tgt).envIpcDstva.toNat < UTOP then
    let pgdir ← envPgdirOf tgt
    let x ← pageInsert pgdir temppg (s.envs tgt).envIpcDstva perm
    if x ≠ 0 then
      pure (-E_INVAL)
    else
      setIpcPerm tgt perm
      ipcReceived tgt value
  else
    setIpcPerm tgt 0
    ipcReceived tgt value

/-- Try to send a value, and the page at `srcva` if `srcva` is below `UTOP`. -/
def sysIpcTrySend (envid value srcva perm : Word) : Prog Kernel Word := do
  match ← envid2env envid false with
  | none => pure (-E_BAD_ENV)
  | some tgt =>
      let s ← get
      if (s.envs tgt).envIpcRecving = false then
        pure (-E_IPC_NOT_RECV)
      else if srcva.toNat < UTOP then
        if srcva.toNat % PGSIZE ≠ 0 then
          pure (-E_INVAL)
        else if perm &&& (PTE_U ||| PTE_P) ≠ PTE_U ||| PTE_P then
          pure (-E_INVAL)
        else if perm &&& ~~~ PTE_SYSCALL ≠ 0 then
          pure (-E_INVAL)
        else
          let pgdir ← curPgdir
          match ← pageLookup pgdir srcva with
          | none => pure (-E_INVAL)
          | some (temppg, temp) =>
              let s ← get
              if perm &&& PTE_W ≠ 0 ∧ s.entry temp.1 temp.2 &&& PTE_W = 0 then
                pure (-E_INVAL)
              else
                ipcSendPage tgt value perm temppg
      else
        setIpcPerm tgt 0
        ipcReceived tgt value

/-- Wait for a message, and give up the processor. -/
def sysIpcRecv (dstva : Word) : Prog Kernel Word := do
  let cur ← curenv
  if dstva.toNat < UTOP ∧ dstva.toNat % PGSIZE ≠ 0 then
    pure (-E_INVAL)
  else
    modify (fun s => s.setEnv cur { s.envs cur with
      envIpcDstva := if dstva.toNat ≥ UTOP then BitVec.ofNat 32 KERNBASE else dstva })
    modify (fun s => s.setEnv cur { s.envs cur with
      envIpcRecving := true
      envStatus := .ENV_NOT_RUNNABLE
      envTf := { (s.envs cur).envTf with tfRegs := { (s.envs cur).envTf.tfRegs with regEax := 0 } } })
    sysYield
    pure 0

/-! ### Dispatch -/

/-- The handler of a system call and the value it returns, `0` if it returns none. -/
def Syscall.handler (binary : Program → Binary) (a1 a2 a3 a4 a5 : Word) : Syscall → Prog Host Word
  | SYS_cputs => onKernel (do sysCputs a1 a2; pure 0)
  | SYS_cgetc => onKernel sysCgetc
  | SYS_getenvid => onKernel sysGetenvid
  | SYS_env_destroy => onKernel (sysEnvDestroy a1)
  | SYS_yield => onKernel (do sysYield; pure 0)
  | SYS_exofork => onKernel sysExofork
  | SYS_env_set_status => onKernel (sysEnvSetStatus a1 a2)
  | SYS_page_alloc => onKernel (sysPageAlloc a1 a2 a3)
  | SYS_page_map => onKernel (sysPageMap a1 a2 a3 a4 a5)
  | SYS_page_unmap => onKernel (sysPageUnmap a1 a2)
  | SYS_env_set_pgfault_upcall => onKernel (sysEnvSetPgfaultUpcall a1 a2)
  | SYS_ipc_recv => onKernel (sysIpcRecv a1)
  | SYS_ipc_try_send => onKernel (sysIpcTrySend a1 a2 a3 a4)
  | SYS_envcreate => onKernel (sysEnvcreate binary)
  | SYS_envreplace => onKernel (sysEnvreplace binary a1 a2 a3)
  | SYS_envmakeguest => sysEnvMakeguest a1 a2

/-- Dispatch to the handler of a system call. -/
def syscall (binary : Program → Binary) (syscallno a1 a2 a3 a4 a5 : Word) : Prog Host Word :=
  match Syscall.ofWord syscallno with
  | some sys => sys.handler binary a1 a2 a3 a4 a5
  | none => pure (-E_NO_SYS)

end Root

end Jos
